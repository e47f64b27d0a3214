import Deli.Action
import Deli.Checked
import Deli.Config
import Deli.Config.Load
import Deli.Decimal
import Deli.Document
import Deli.Document.Cursor
import Deli.Document.Data
import Deli.Document.Date
import Deli.Document.Leaf
import Deli.Document.Lexer
import Deli.Document.Node
import Deli.Document.Number
import Deli.Document.Plain
import Deli.Document.Scalar
import Deli.Document.Tag
import Deli.Document.Token
import Deli.Folder
import Deli.Ingredient
import Deli.Interpreter
import Deli.Kitchen
import Deli.Main
import Deli.Name
import Deli.Operation
import Deli.Outcome
import Deli.Pantry
import Deli.Problem
import Deli.Proofs.Acceptance
import Deli.Proofs.Breakdown
import Deli.Proofs.Calls
import Deli.Proofs.Complaints
import Deli.Proofs.Config
import Deli.Proofs.Dish
import Deli.Proofs.Exec
import Deli.Proofs.Finality
import Deli.Proofs.Fusion
import Deli.Proofs.Guarded
import Deli.Proofs.InStock
import Deli.Proofs.Kitchen
import Deli.Proofs.Legible
import Deli.Proofs.Log
import Deli.Proofs.Override
import Deli.Proofs.PassThrough
import Deli.Proofs.Program
import Deli.Proofs.Provenance
import Deli.Proofs.Request
import Deli.Proofs.Sandwich
import Deli.Proofs.Service
import Deli.Proofs.Session.Announcement
import Deli.Proofs.Session.Assignment
import Deli.Proofs.Session.Bench
import Deli.Proofs.Session.Book
import Deli.Proofs.Session.Builders
import Deli.Proofs.Session.Call
import Deli.Proofs.Session.Closers
import Deli.Proofs.Session.Collection
import Deli.Proofs.Session.Evaluation
import Deli.Proofs.Session.Exec
import Deli.Proofs.Session.Finished
import Deli.Proofs.Session.Growth
import Deli.Proofs.Session.Held
import Deli.Proofs.Session.Keeps
import Deli.Proofs.Session.Kitchen
import Deli.Proofs.Session.Literals
import Deli.Proofs.Session.Looking
import Deli.Proofs.Session.Makers
import Deli.Proofs.Session.Registry
import Deli.Proofs.Session.Selection
import Deli.Proofs.Session.Sound
import Deli.Proofs.Session.State
import Deli.Proofs.Session.Step
import Deli.Proofs.Session.Sums
import Deli.Proofs.Session.Valid
import Deli.Proofs.Session.WellMade
import Deli.Proofs.Settings
import Deli.Proofs.ShortCircuit
import Deli.Proofs.Stock
import Deli.Recipe
import Deli.Recipe.Book
import Deli.Rounded
import Deli.Sandwich
import Deli.Sandwich.Builder
import Deli.Sandwich.Fields
import Deli.Scene
import Deli.Service
import Deli.Session.Assignment
import Deli.Session.Call
import Deli.Session.Collection
import Deli.Session.Evaluation
import Deli.Session.Heap
import Deli.Session.Method
import Deli.Session.State
import Deli.Session.Step
import Deli.Session.Term
import Deli.Session.View
import Deli.Technology
import Deli.Technology.Bindings
import Deli.Text.Base64
import Deli.Text.Case
import Deli.Text.Digit
import Deli.Text.Halves
import Deli.Text.Lower
import Deli.Text.Printable
import Deli.Text.Quoted
import Deli.Value
import Deli.Value.Plus
import Deli.Value.Same
import Deli.Value.Text
import Deli.Vocabulary

import Deli.Value

/-! What values can be asked to do by name. Values of different kinds may share a name and mean
something else by it. -/

namespace Deli.Session

inductive Method where
  | withBottom | addComponent | withBody | withTop | build | toBuilder
  | getOrNull | getOrRaise | errorOrNull | mapCatching | fold | next | finish
  | get | register | listRecipes | first | cook | fromConfig
  | append | extend | insert | pop | remove | clear | index | count | reverse | copy
  | keys | values | setDefault | update
  | translate
  deriving DecidableEq, Repr

namespace Method

def name : Method → String
  | withBottom => "with_bottom"
  | addComponent => "add_component"
  | withBody => "with_body"
  | withTop => "with_top"
  | build => "build"
  | toBuilder => "to_builder"
  | getOrNull => "get_or_none"
  | getOrRaise => "get_or_raise"
  | errorOrNull => "exception_or_none"
  | mapCatching => "map_catching"
  | fold => "fold"
  | next => "next"
  | finish => "finish"
  | get => "get"
  | register => "register"
  | listRecipes => "list_recipes"
  | first => "first"
  | cook => "cook"
  | fromConfig => "from_config"
  | append => "append"
  | extend => "extend"
  | insert => "insert"
  | pop => "pop"
  | remove => "remove"
  | clear => "clear"
  | index => "index"
  | count => "count"
  | reverse => "reverse"
  | copy => "copy"
  | keys => "keys"
  | values => "values"
  | setDefault => "setdefault"
  | update => "update"
  | translate => "translate"

def ofOutcome : List Method :=
  [.getOrNull, .getOrRaise, .errorOrNull, .mapCatching, .fold, .next, .finish]

def ofKind : Kind → List Method
  | .list =>
    [.append, .extend, .insert, .pop, .remove, .clear, .index, .count, .reverse, .copy]
  | .mapping => [.get, .keys, .values, .pop, .setDefault, .update, .clear, .copy]
  | .set => [.copy]
  | .body => [.toBuilder]
  | .bodyBuilder => [.withBottom, .addComponent, .build]
  | .readyBuilder => [.withBody, .withTop, .build]
  | .technologyBuilder => [.build]
  | .book => [.register, .get, .listRecipes, .first]
  | .pantry => [.get]
  | .kitchen => [.cook, .fromConfig]
  | .outcome => ofOutcome
  | .ready | .technology | .callable | .config => []

/-- The methods of a value. Of those of texts there is only the one by which halves of characters can
come into a session. -/
def ofValue : Value → List Method
  | .success _ | .failure _ => ofOutcome
  | .tuple _ => [.index, .count]
  | .handle h => ofKind h.kind
  | v => if v.isText then [.translate] else []

/-- The method that a value has under a name. -/
def named? (v : Value) (name : String) : Option Method :=
  (ofValue v).find? (·.name == name)

end Method

end Deli.Session

/-! The tags that are known without being declared. -/

namespace Deli.Document

namespace Tag

/-- The name space of the tags that are known without being declared. -/
def core (name : String) : String := "tag:yaml.org,2002:" ++ name

def null : String := core "null"
def bool : String := core "bool"
def int : String := core "int"
def float : String := core "float"
def timestamp : String := core "timestamp"
def merge : String := core "merge"
def default : String := core "value"
def str : String := core "str"
def seq : String := core "seq"
def map : String := core "map"
def binary : String := core "binary"
def set : String := core "set"
def omap : String := core "omap"
def pairs : String := core "pairs"

end Tag

end Deli.Document

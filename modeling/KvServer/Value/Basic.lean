/-!
# Values

The values that a source of settings gives: texts, numbers and truth values, and tables and lists
of values.  `Value.merge` puts one value in the place of another, except that it adds the entries
of a table to those that are there.
-/

namespace KvServer

inductive Value
  /-- Nothing: the place is there, and no value has been put into it. -/
  | nothing
  | text (s : String)
  | integer (n : Int)
  | real (x : Float)
  | flag (b : Bool)
  | table (entries : List (String × Value))
  | list (items : List Value)

namespace Value

/-- The entries of a table; another value has none. -/
def entries : Value → List (String × Value)
  | table entries => entries
  | _ => []

def items : Value → List Value
  | list items => items
  | _ => []

def get? (v : Value) (name : String) : Option Value := v.entries.lookup name

def setEntry (name : String) (v : Value) : List (String × Value) → List (String × Value)
  | [] => [(name, v)]
  | e :: es => if e.1 = name then (name, v) :: es else e :: setEntry name v es

/-- A table with one of its entries set; what is no table gives way to one. -/
def set (name : String) (v old : Value) : Value := table (setEntry name v old.entries)

mutual

/-- The value that takes the place of `old`: a table adds its entries to those of `old`. -/
def merge (old : Value) : Value → Value
  | table entries => mergeEntries old entries
  | v => v

def mergeEntries (old : Value) : List (String × Value) → Value
  | [] => old
  | (name, v) :: entries =>
      mergeEntries (set name (merge ((old.get? name).getD (table [])) v) old) entries

end

end Value

end KvServer

/-!
# Items of a TOML document

A document gives items with keys.  An item of a table may be a table itself, and three kinds of
table differ in what may still be added to them: an inline table takes nothing more, a table made by
a dotted key takes more dotted keys, and the table of a header takes what the headers below it
bring.
-/

namespace KvServer.Toml

inductive Item
  | text (cs : List Char)
  | integer (n : Int)
  | real (x : Float)
  | flag (b : Bool)
  | moment (cs : List Char)
  | list (items : List Item)
  | inline (entries : List (List Char × Item))
  /-- A table made by a dotted key. -/
  | dotted (entries : List (List Char × Item))
  /-- The table of a header, or of headers below it only while `given` is false. -/
  | section (given : Bool) (entries : List (List Char × Item))
  /-- The tables of a repeated header, the last one first. -/
  | sections (tables : List (List (List Char × Item)))

/-- A table: items with their names, the last one first. -/
abbrev Entries := List (List Char × Item)

def Item.isSection : Item → Bool
  | .section .. | .sections _ => true
  | _ => false

namespace Entries

def put (name : List Char) (item : Item) : Entries → Entries
  | [] => []
  | e :: entries => if e.1 = name then (name, item) :: entries else e :: put name item entries

/-- Adds an item under a key of one or more names.  More than one lead into the table that stands
under the first name, which a dotted key has to have made; the oldest item under it counts. -/
def add (item : Item) : List (List Char) → Entries → Option Entries
  | [], _ => none
  | [name], entries => some ((name, item) :: entries)
  | name :: names, entries =>
      match entries.reverse.lookup name with
      | none => (add item names []).map fun inner ↦ (name, .dotted inner) :: entries
      | some (.dotted inner) => (add item names inner).map fun inner ↦
          (put name (.dotted inner) entries.reverse).reverse
      | some _ => none

def alter (name : List Char) (f : Option Item → Option Item) (entries : Entries) :
    Option Entries :=
  match entries.lookup name with
  | none => (f none).map fun item ↦ (name, item) :: entries
  | some item => (f (some item)).map fun item ↦ entries.put name item

/-- Changes the table that a path of names leads to.  A repeated header leads to its last table; a
name that is not there yet leads to a new table. -/
def within (f : Entries → Option Entries) : List (List Char) → Entries → Option Entries
  | [], entries => f entries
  | name :: names, entries => entries.alter name fun
      | none => (within f names []).map (.section false)
      | some (.section given inner) => (within f names inner).map (.section given)
      | some (.sections (last :: tables)) =>
          (within f names last).map fun last ↦ .sections (last :: tables)
      | some _ => none

end Entries

structure Block where
  repeated : Bool
  above : List (List Char)
  name : List Char
  entries : Entries

/-- Puts the items of a header into the table of a document.  A repeated header brings a new table;
any other may come once, also after headers below it. -/
def Block.place (b : Block) (entries : Entries) : Option Entries :=
  entries.within (fun inner ↦ inner.alter b.name fun
    | none => some (if b.repeated then .sections [b.entries] else .section true b.entries)
    | some (.section false below) =>
        if b.repeated then none else some (.section true (b.entries ++ below))
    | some (.sections tables) => if b.repeated then some (.sections (b.entries :: tables)) else none
    | some _ => none) b.above

end KvServer.Toml

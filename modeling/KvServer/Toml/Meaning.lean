import KvServer.Toml.Item
import KvServer.Toml.Moment
import KvServer.Value.Basic

/-!
# What TOML items stand for

`Item.value?` is the value that an item stands for.  A moment stands for its text in normal form.
A table stands for its entries, whose names have to differ, except when the oldest of them has the
name `Moment.mark`: then the table stands for the moment that this entry is a text of, and nobody
looks at its other entries.
-/

namespace KvServer.Toml

/-- The name of an entry that makes its table stand for a moment. -/
def Moment.mark : List Char := "$__toml_private_datetime".toList

def momentValue? (cs : List Char) : Option Value :=
  (Moment.parse? cs).map fun m ↦ .text (.ofList m.text)

/-- The oldest item of a table, if it makes the table stand for a moment. -/
def Entries.mark? (entries : Entries) : Option Item :=
  (entries.getLast?.filter fun e ↦ e.1 = Moment.mark).map (·.2)

def distinct : List (List Char) → Bool
  | [] => true
  | name :: names => !names.contains name && distinct names

/-- The value of a table whose entries have the given values.  Headers below a table that stands for
a moment are refused. -/
def tableValue? (entries : Entries) (values? : Option (List (String × Value))) : Option Value :=
  match entries.mark? with
  | some (.text cs) => if entries.any (·.2.isSection) then none else momentValue? cs
  | some _ => none
  | none => if distinct (entries.map (·.1)) then values?.map (.table ·.reverse) else none

mutual

def Item.value? : Item → Option Value
  | .text cs => some (.text (.ofList cs))
  | .integer n => some (.integer n)
  | .real x => some (.real x)
  | .flag b => some (.flag b)
  | .moment cs => momentValue? cs
  | .list items => (itemValues? items).map .list
  | .inline entries | .dotted entries | .section _ entries =>
      tableValue? entries (entryValues? entries)
  | .sections tables => (tableValues? tables).map (.list ·.reverse)

def itemValues? : List Item → Option (List Value)
  | [] => some []
  | item :: items => do
      let v ← item.value?
      let vs ← itemValues? items
      some (v :: vs)

def entryValues? : List (List Char × Item) → Option (List (String × Value))
  | [] => some []
  | (name, item) :: entries => do
      let v ← item.value?
      let vs ← entryValues? entries
      some ((.ofList name, v) :: vs)

def tableValues? : List (List (List Char × Item)) → Option (List Value)
  | [] => some []
  | entries :: tables => do
      let v ← tableValue? entries (entryValues? entries)
      let vs ← tableValues? tables
      some (v :: vs)

end

/-- The value of a document with some items before its first header.  The headers do not matter when
these items stand for a moment. -/
def rootValue? (entries : Entries) (blocks : List Block) : Option Value := do
  let entries ← if entries.mark?.isSome then some entries
    else blocks.foldlM (fun entries b ↦ b.place entries) entries
  tableValue? entries (entryValues? entries)

end KvServer.Toml

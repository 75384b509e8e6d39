import BehaviorTree.Json.Basic

/-!
# Documents

A document is a tree of sequences and mappings over scalars, in which every scalar stands for a
value: nothing, a truth value, a number or a text. Keys of mappings are documents themselves and
keep the order in which they are written. `Yaml.ofEntries` builds a mapping in which no text
stands twice as a key.
-/

namespace BehaviorTree

inductive Yaml where
  | null
  | bool (value : Bool)
  /-- An integer that fits in 64 bits with or without a sign. -/
  | integer (number : WideInteger)
  /-- Another number, which may be infinite or not a number. -/
  | real (number : Binary64)
  | string (text : String)
  | sequence (items : List Yaml)
  /-- Documents under keys, in the order in which they are written. -/
  | mapping (entries : List (Yaml × Yaml))
deriving Inhabited

namespace Yaml

def asText? : Yaml → Option String
  | string text => some text
  | _ => none

/-- Puts an entry behind others. An entry whose key is the same text is replaced. Other keys are
not compared, as nothing is ever looked up under them. -/
def insertEntry (key value : Yaml) : List (Yaml × Yaml) → List (Yaml × Yaml)
  | [] => [(key, value)]
  | first :: rest =>
    match key, first.1 with
    | string new, string old =>
      if new = old then (key, value) :: rest else first :: insertEntry key value rest
    | _, _ => first :: insertEntry key value rest

/-- The mapping with the given entries. Of the entries with the same text as their key the first
one gives the place and the last one the value. -/
def ofEntries (entries : List (Yaml × Yaml)) : Yaml :=
  mapping (entries.foldl (fun distinct entry => insertEntry entry.1 entry.2 distinct) [])

def lookup? (name : String) : List (Yaml × Yaml) → Option Yaml
  | [] => none
  | (key, value) :: rest => if key.asText? = some name then some value else lookup? name rest

def get? (name : String) : Yaml → Option Yaml
  | mapping entries => lookup? name entries
  | _ => none

/-- The entries of the mapping under a text; none if there is no mapping. -/
def entriesUnder (name : String) (yaml : Yaml) : List (Yaml × Yaml) :=
  match yaml.get? name with
  | some (mapping entries) => entries
  | _ => []

/-- The items of the sequence under a text; none if there is no sequence. -/
def itemsUnder (name : String) (yaml : Yaml) : List Yaml :=
  match yaml.get? name with
  | some (sequence items) => items
  | _ => []

theorem sizeOf_lt_of_lookup? {name : String} {entries : List (Yaml × Yaml)} {value : Yaml}
    (found : lookup? name entries = some value) : sizeOf value < sizeOf entries := by
  induction entries with
  | nil => simp [lookup?] at found
  | cons first rest ih =>
    obtain ⟨key, first⟩ := first
    simp only [lookup?] at found
    split at found
    · simp only [Option.some.injEq] at found
      subst found
      simp only [List.cons.sizeOf_spec, Prod.mk.sizeOf_spec]
      omega
    · have smaller := ih found
      simp only [List.cons.sizeOf_spec]
      omega

theorem sizeOf_lt_of_get? {name : String} {yaml value : Yaml}
    (found : yaml.get? name = some value) : sizeOf value < sizeOf yaml := by
  cases yaml with
  | mapping entries =>
    have smaller := sizeOf_lt_of_lookup? found
    simp only [mapping.sizeOf_spec]
    omega
  | _ => simp [get?] at found

/-- What stands in a sequence under a text is smaller than the whole document. -/
theorem sizeOf_lt_of_mem_itemsUnder {name : String} {yaml item : Yaml}
    (member : item ∈ yaml.itemsUnder name) : sizeOf item < sizeOf yaml := by
  unfold itemsUnder at member
  split at member
  · rename_i items found
    have smaller := sizeOf_lt_of_get? found
    have itemSmaller := List.sizeOf_lt_of_mem member
    simp only [sequence.sizeOf_spec] at smaller
    omega
  · simp at member

mutual

/-- A document as a message, unless a mapping in it has a key that is no text. A number that is
infinite or not a number becomes `null`. -/
def toJson? : Yaml → Option Json
  | null => some .null
  | bool value => some (.bool value)
  | integer number => some (.integer number)
  | real number => some (.ofBinary64 number)
  | string text => some (.string text)
  | sequence items => (itemsToJson? items).map .array
  | mapping entries => (entriesToJson? entries).map .ofMembers

def itemsToJson? : List Yaml → Option (List Json)
  | [] => some []
  | item :: items => do
    let item ← item.toJson?
    let items ← itemsToJson? items
    return item :: items

def entriesToJson? : List (Yaml × Yaml) → Option (List (String × Json))
  | [] => some []
  | (key, value) :: entries => do
    let key ← key.asText?
    let value ← value.toJson?
    let entries ← entriesToJson? entries
    return (key, value) :: entries

end

end Yaml

end BehaviorTree

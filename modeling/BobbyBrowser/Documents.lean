/-
Documents: trees of strings, numbers, lists and objects.

An object is either a record, whose field names belong to its type, or a map,
whose keys are data like its values. The texts of a document are its strings and
the keys of its maps. `walk` changes every string and nothing else, so after it
the texts are the changed strings and the keys as they were.
-/
import BobbyBrowser.Texts

set_option autoImplicit false

namespace BobbyBrowser.Documents

open Texts List

/-- A `serde_json::Value`. -/
inductive Value
  | null
  | bool (value : Bool)
  | number (value : ℤ)
  | string (text : Text)
  | array (items : List Value)
  | record (fields : List (Text × Value))
  | map (entries : List (Text × Value))

namespace Value

/-- A string, or nothing. -/
def option_string : Option Text → Value
  | none => null
  | some text => string text

/-- A number, or nothing. -/
def option_number : Option ℕ → Value
  | none => null
  | some n => number n

/-- A map from strings to strings. -/
def string_map (entries : List (Text × Text)) : Value :=
  map (entries.map fun entry => (entry.1, string entry.2))

mutual

/-- The strings of a document. -/
def strings : Value → List Text
  | string text => [text]
  | array items => strings_items items
  | record fields | map fields => strings_fields fields
  | null | bool _ | number _ => []

/-- The strings of the items of an array. -/
def strings_items : List Value → List Text
  | [] => []
  | item :: items => strings item ++ strings_items items

/-- The strings of the values of an object. -/
def strings_fields : List (Text × Value) → List Text
  | [] => []
  | (_, value) :: fields => strings value ++ strings_fields fields

end

mutual

/-- The keys of the maps of a document. -/
def keys : Value → List Text
  | array items => keys_items items
  | record fields => keys_fields fields
  | map entries => entries.map Prod.fst ++ keys_fields entries
  | null | bool _ | number _ | string _ => []

/-- The keys of the items of an array. -/
def keys_items : List Value → List Text
  | [] => []
  | item :: items => keys item ++ keys_items items

/-- The keys of the values of an object. -/
def keys_fields : List (Text × Value) → List Text
  | [] => []
  | (_, value) :: fields => keys value ++ keys_fields fields

end

/-- Every text a document carries. -/
def texts (value : Value) : List Text := value.strings ++ value.keys

mutual

/-- The document with every string changed. -/
def walk (f : Text → Text) : Value → Value
  | string text => string (f text)
  | array items => array (walk_items f items)
  | record fields => record (walk_fields f fields)
  | map entries => map (walk_fields f entries)
  | null => null
  | bool value => bool value
  | number value => number value

/-- `walk` on the items of an array. -/
def walk_items (f : Text → Text) : List Value → List Value
  | [] => []
  | item :: items => walk f item :: walk_items f items

/-- `walk` on the values of an object. -/
def walk_fields (f : Text → Text) : List (Text × Value) → List (Text × Value)
  | [] => []
  | (name, value) :: fields => (name, walk f value) :: walk_fields f fields

end

mutual

/-- The strings of a changed document are its strings, changed. -/
theorem strings_walk (f : Text → Text) : ∀ value : Value, (walk f value).strings = value.strings.map f
  | string _ | null | bool _ | number _ => rfl
  | array items => strings_walk_items f items
  | record fields | map fields => strings_walk_fields f fields

theorem strings_walk_items (f : Text → Text) :
    ∀ items : List Value, strings_items (walk_items f items) = (strings_items items).map f
  | [] => rfl
  | item :: items => by
    rw [walk_items, strings_items, strings_items, map_append, strings_walk f item,
      strings_walk_items f items]

theorem strings_walk_fields (f : Text → Text) :
    ∀ fields : List (Text × Value), strings_fields (walk_fields f fields) = (strings_fields fields).map f
  | [] => rfl
  | (name, value) :: fields => by
    rw [walk_fields, strings_fields, strings_fields, map_append, strings_walk f value,
      strings_walk_fields f fields]

end

theorem map_fst_walk_fields (f : Text → Text) (fields : List (Text × Value)) :
    (walk_fields f fields).map Prod.fst = fields.map Prod.fst := by
  induction fields with
  | nil => rfl
  | cons field fields ih => rw [walk_fields, map_cons, map_cons, ih]

mutual

/-- The keys of a changed document are its keys. -/
theorem keys_walk (f : Text → Text) : ∀ value : Value, (walk f value).keys = value.keys
  | string _ | null | bool _ | number _ => rfl
  | array items => keys_walk_items f items
  | record fields => keys_walk_fields f fields
  | map entries => by
    rw [walk, keys, keys, map_fst_walk_fields, keys_walk_fields f entries]

theorem keys_walk_items (f : Text → Text) :
    ∀ items : List Value, keys_items (walk_items f items) = keys_items items
  | [] => rfl
  | item :: items => by
    rw [walk_items, keys_items, keys_items, keys_walk f item, keys_walk_items f items]

theorem keys_walk_fields (f : Text → Text) :
    ∀ fields : List (Text × Value), keys_fields (walk_fields f fields) = keys_fields fields
  | [] => rfl
  | (name, value) :: fields => by
    rw [walk_fields, keys_fields, keys_fields, keys_walk f value, keys_walk_fields f fields]

end

/-- **What a change leaves**: the changed strings, and the keys. -/
theorem texts_walk (f : Text → Text) (value : Value) :
    (walk f value).texts = value.strings.map f ++ value.keys := by
  rw [texts, strings_walk, keys_walk]

@[simp] theorem keys_option_string (text : Option Text) : (option_string text).keys = [] := by
  cases text <;> rfl

@[simp] theorem keys_option_number (n : Option ℕ) : (option_number n).keys = [] := by
  cases n <;> rfl

theorem keys_string_map (entries : List (Text × Text)) :
    (string_map entries).keys = entries.map Prod.fst := by
  have hvalues : keys_fields (entries.map fun entry => (entry.1, string entry.2)) = [] := by
    induction entries with
    | nil => rfl
    | cons entry entries ih => rw [map_cons, keys_fields, keys, ih, append_nil]
  rw [string_map, keys, hvalues, append_nil, map_map]
  rfl

@[simp] theorem strings_option_string (text : Option Text) :
    (option_string text).strings = text.toList := by
  cases text <;> rfl

/-- The strings of an array are those of its items, in their order. -/
theorem strings_items_eq_flatMap (items : List Value) :
    strings_items items = items.flatMap strings := by
  induction items with
  | nil => rfl
  | cons item items ih => rw [strings_items, ih, flatMap_cons]

theorem keys_items_eq_nil {items : List Value} (h : ∀ item ∈ items, item.keys = []) :
    keys_items items = [] := by
  induction items with
  | nil => rfl
  | cons item items ih =>
    rw [keys_items, h item mem_cons_self,
      ih fun other hother => h other (mem_cons_of_mem item hother), append_nil]

end Value

end BobbyBrowser.Documents

import JavaOutline.Json.Double

/-!
# JavaOutline.Json.Basic

JSON documents. An object is the list of its entries in the order written, so
two documents that differ only in the order of keys are different documents.

The module defines the type, the views that decoders use (`text?`, `natural?`,
`items?`, `get?`, `name?`, `keyed`) and `child?`, which looks up a key and keeps
the fact that what it finds is smaller than the whole: recursive decoders end
because of it.
-/

namespace JavaOutline

/-- Numbers of a document: integers keep all their digits, anything written
with a fraction or an exponent is a double. -/
inductive Number where
  | integer (value : Int)
  | double (value : Double)
  deriving Repr, DecidableEq, Inhabited

/-- A JSON document. -/
inductive Json where
  | null
  | bool (value : Bool)
  | number (value : Number)
  | string (value : String)
  | array (items : List Json)
  | object (entries : List (String × Json))
  deriving Inhabited

namespace Json

/-- The number `n` as a document. -/
def ofNat (n : Nat) : Json := .number (.integer n)

/-- A list of texts as a document. -/
def ofTexts (texts : List String) : Json := .array (texts.map .string)

/-! ## Views -/

/-- The text of a string. -/
def text? : Json → Option String
  | .string s => some s
  | _ => none

/-- The value of a boolean. -/
def flag? : Json → Option Bool
  | .bool b => some b
  | _ => none

/-- The value of a natural number below `2 ^ 64`. -/
def natural? : Json → Option Nat
  | .number (.integer (.ofNat n)) => if n < UInt64.size then some n else none
  | _ => none

/-- The items of an array. -/
def items? : Json → Option (List Json)
  | .array items => some items
  | _ => none

/-- The entries of an object. -/
def entries? : Json → Option (List (String × Json))
  | .object entries => some entries
  | _ => none

/-- The value of `key` in an object: the first entry with that key. -/
def get? (j : Json) (key : String) : Option Json :=
  match j with
  | .object entries => entries.lookup key
  | _ => none

/-- Decodes every item of an array of texts. -/
def texts? (j : Json) : Option (List String) := do
  (← j.items?).mapM text?

/-- The name of an alternative to which nothing else belongs: a string, or the
only key of an object that holds `null`. -/
def name? : Json → Option String
  | .string name | .object [(name, .null)] => some name
  | _ => none

/-- A record with the keys `keys`. It may also be written as the array of its
values in the order of the keys; the object that such an array stands for is
read in its place. -/
def keyed (j : Json) (keys : List String) : Json :=
  match j with
  | .array items => if items.length = keys.length then .object (keys.zip items) else j
  | _ => j

@[simp] theorem name?_string (name : String) : (Json.string name).name? = some name := rfl

@[simp] theorem keyed_object (entries : List (String × Json)) (keys : List String) :
    (Json.object entries).keyed keys = .object entries := rfl

/-! ## Looking up smaller documents -/

theorem sizeOf_lookup_lt {entries : List (String × Json)} {key : String} {x : Json}
    (h : entries.lookup key = some x) : sizeOf x < sizeOf entries := by
  induction entries with
  | nil => simp at h
  | cons e es ih =>
    obtain ⟨k, v⟩ := e
    simp only [List.lookup_cons] at h
    split at h
    · cases h; simp; omega
    · have := ih h; simp; omega

/-- What an object holds is smaller than the object. -/
theorem sizeOf_get?_lt {j x : Json} {key : String} (h : j.get? key = some x) :
    sizeOf x < sizeOf j := by
  cases j with
  | object entries => have := sizeOf_lookup_lt h; simp; omega
  | _ => simp [get?] at h

/-- The value of `key`, with the fact that it is smaller than the object. -/
def child? (j : Json) (key : String) : Option { x : Json // sizeOf x < sizeOf j } :=
  match h : j.get? key with
  | some x => some ⟨x, sizeOf_get?_lt h⟩
  | none => none

/-- Forgetting the size, `child?` is `get?`. -/
theorem map_val_child? (j : Json) (key : String) :
    (j.child? key).map Subtype.val = j.get? key := by
  unfold child?
  split <;> simp_all

/-- The value of `key`, where a missing key and `null` both mean that there is
none. -/
def optionalChild? (j : Json) (key : String) : Option { x : Json // sizeOf x < sizeOf j } :=
  match j.child? key with
  | some ⟨.null, _⟩ => none
  | found => found

/-- What a lookup in zipped keys and items finds is one of the items. -/
theorem mem_of_lookup_zip {keys : List String} {items : List Json} {key : String} {x : Json}
    (h : (keys.zip items).lookup key = some x) : x ∈ items := by
  obtain ⟨front, back, heq, -⟩ := List.lookup_eq_some_iff.mp h
  have hmem : (key, x) ∈ keys.zip items := by simp [heq]
  exact (List.of_mem_zip hmem).2

/-- What a record holds is smaller than the record, in either of its forms. -/
theorem sizeOf_get?_keyed_lt {j x : Json} {keys : List String} {key : String}
    (h : (j.keyed keys).get? key = some x) : sizeOf x < sizeOf j := by
  unfold keyed at h
  split at h
  · split at h
    · have := List.sizeOf_lt_of_mem (mem_of_lookup_zip h)
      simp only [Json.array.sizeOf_spec]
      omega
    · simp [get?] at h
  · exact sizeOf_get?_lt h

/-- The items of the array under `key` of a record, together smaller than the
record. -/
def recordItems? (j : Json) (keys : List String) (key : String) :
    Option { items : List Json // sizeOf items < sizeOf j } :=
  match h : (j.keyed keys).get? key with
  | some (.array items) =>
    some ⟨items, by have := sizeOf_get?_keyed_lt h; simp at this; omega⟩
  | _ => none

/-- The items of the array under `key`, together smaller than the object. -/
def childItems? (j : Json) (key : String) :
    Option { items : List Json // sizeOf items < sizeOf j } :=
  match j.child? key with
  | some ⟨.array items, h⟩ => some ⟨items, by simp at h; omega⟩
  | _ => none

/-- A tagged value: an object with exactly one key. -/
def tagged? (j : Json) : Option (String × { x : Json // sizeOf x < sizeOf j }) :=
  match j with
  | .object [(tag, x)] => some (tag, ⟨x, by simp; omega⟩)
  | _ => none

/-! ## Required keys -/

/-- The text under `key`. -/
def textAt? (j : Json) (key : String) : Option String := do (← j.get? key).text?

/-- The boolean under `key`. -/
def flagAt? (j : Json) (key : String) : Option Bool := do (← j.get? key).flag?

/-- The natural number under `key`. -/
def naturalAt? (j : Json) (key : String) : Option Nat := do (← j.get? key).natural?

/-- The list of texts under `key`. -/
def textsAt? (j : Json) (key : String) : Option (List String) := do (← j.get? key).texts?

/-- The array under `key`, every item decoded by `item`. -/
def listAt? (item : Json → Option α) (j : Json) (key : String) : Option (List α) := do
  (← (← j.get? key).items?).mapM item

end Json

end JavaOutline

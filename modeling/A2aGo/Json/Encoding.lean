import Mathlib.Data.Finmap
import Mathlib.Data.List.Sort
import Mathlib.Data.String.Basic

/-!
**`encoding/json` on JSON values: what `json.Marshal` writes for a Go value, and what
`json.Unmarshal` makes of a JSON value.**

A Go value is written as a JSON value and read back from one. The text in between is not
modelled: a Lean `String` is valid UTF-8, and on valid UTF-8 the text `json.Marshal` writes parses
back to the value it wrote; this is assumed of the library, not proved. Numbers, booleans and
arrays are kept only by their kind, and the `Struct`, `Field` and `Offset` of an
`UnmarshalTypeError` are left out. What is modelled is how each Go type is written
and read: a `string`, a `map[string]V` (a `StringMap`, compared as `reflect.DeepEqual` compares
maps, `none` the nil map), a pointer (`Option`, `none` the nil pointer), and a struct, by its
fields (`Field`): the JSON name, `omitempty`, and how a member decodes into the field's current
value. `json.Unmarshal` matches a member to a field by its exact name, else by its name under case
folding; it skips a member no field takes; `null` sets a map or a pointer to nil and leaves
anything else as it was.

* `entriesSorted`: a map's entries by increasing key, the order `json.Marshal` writes them in;
  `RangeOrder`: the order a `range` over a map visits them in, any order;
* `decodeStruct_encodeStruct`: **a struct whose every field reads back what it wrote reads back
  itself**, whatever members that no field takes stand before or after its own;
* `decodeMap_encodeMap`: a map reads back itself, nil or not;
* `foldlM_range_ok_iff`, `foldlM_insert_error`: a `range` that decodes each value of a map into a
  new map ends well, in any order, exactly when every value decodes, with those values; else with
  the error of one of them.
-/

namespace A2aGo.Json

/-- A JSON value. An object keeps its members in the order of the text, repeated names
included; a number keeps its literal. -/
inductive JsonValue
  | null
  | bool (value : Bool)
  | number (literal : String)
  | string (value : String)
  | array (items : List JsonValue)
  | object (members : List (String × JsonValue))

/-- What `UnmarshalTypeError.Value` calls a JSON value. -/
def JsonValue.kind : JsonValue → String
  | .null => "null"
  | .bool _ => "bool"
  | .number _ => "number"
  | .string _ => "string"
  | .array _ => "array"
  | .object _ => "object"

/-- An error of decoding: `*json.UnmarshalTypeError` for a JSON value that does not fit the Go
value's type, by its `Value` and `Type`; or an error built by `fmt.Errorf`. -/
inductive DecodeError
  | unmarshalType (value goType : String)
  | errorf (text : String)
  deriving DecidableEq, Repr

/-- The error for a JSON value that does not fit a Go value of type `goType`. -/
def typeError (value : JsonValue) (goType : String) : DecodeError :=
  .unmarshalType value.kind goType

/-! ### Maps with string keys -/

section Maps

variable {V : Type}

/-- A non-nil Go map with string keys, as `reflect.DeepEqual` compares maps: two are equal when
they hold the same keys with equal values. -/
abbrev StringMap (V : Type) := Finmap fun _ : String => V

/-- The order of strings, decided on their characters: on valid UTF-8 the order of the bytes,
which Go compares, is the order of the characters. -/
def stringLe : DecidableRel fun a b : String => a ≤ b :=
  fun _ _ => decidable_of_iff _ String.le_iff_toList_le.symm

/-- Strings in increasing order, as `sort.Strings` sorts them. -/
def sortStrings (keys : List String) : List String :=
  @List.insertionSort String (· ≤ ·) stringLe keys

theorem sortStrings_perm (keys : List String) : (sortStrings keys).Perm keys :=
  @List.perm_insertionSort String (· ≤ ·) stringLe keys

theorem sortStrings_eq_of_perm {keys keys' : List String} (perm : keys.Perm keys') :
    sortStrings keys = sortStrings keys' :=
  List.eq_of_perm_of_sorted ((sortStrings_perm keys).trans (perm.trans (sortStrings_perm _).symm))
    (@List.sorted_insertionSort String (· ≤ ·) stringLe _ _ keys)
    (@List.sorted_insertionSort String (· ≤ ·) stringLe _ _ keys')

/-- The keys of a map in increasing order. -/
def sortedKeys (m : StringMap V) : List String :=
  Quot.liftOn m.keys.val sortStrings fun _ _ perm => sortStrings_eq_of_perm perm

theorem sortedKeys_perm (m : StringMap V) : (sortedKeys m : Multiset String) = m.keys.val := by
  unfold sortedKeys
  induction m.keys.val using Quot.induction_on with
  | h keys => exact Quot.sound (sortStrings_perm keys)

theorem mem_sortedKeys {m : StringMap V} {key : String} : key ∈ sortedKeys m ↔ key ∈ m := by
  rw [← Multiset.mem_coe, sortedKeys_perm, Finset.mem_val, Finmap.mem_keys]

theorem sortedKeys_nodup (m : StringMap V) : (sortedKeys m).Nodup := by
  rw [← Multiset.coe_nodup, sortedKeys_perm]
  exact m.keys.nodup

/-- The entries of a map by increasing key: the order `json.Marshal` writes them in. -/
def entriesSorted (m : StringMap V) : List (String × V) :=
  (sortedKeys m).filterMap fun key => (m.lookup key).map (key, ·)

theorem mem_entriesSorted {m : StringMap V} {key : String} {value : V} :
    (key, value) ∈ entriesSorted m ↔ m.lookup key = some value := by
  simp only [entriesSorted, List.mem_filterMap, Option.map_eq_some', Prod.mk.injEq]
  constructor
  · rintro ⟨key', -, value', found, rfl, rfl⟩
    exact found
  · intro found
    exact ⟨key, mem_sortedKeys.mpr (Finmap.lookup_isSome.mp (by rw [found]; rfl)), value, found,
      rfl, rfl⟩

theorem entriesSorted_keys (m : StringMap V) : (entriesSorted m).map Prod.fst = sortedKeys m := by
  have present : ∀ key ∈ sortedKeys m, ∃ value, m.lookup key = some value := fun key mem =>
    Option.isSome_iff_exists.mp (Finmap.lookup_isSome.mpr (mem_sortedKeys.mp mem))
  unfold entriesSorted
  generalize sortedKeys m = keys at present ⊢
  induction keys with
  | nil => rfl
  | cons key rest ih =>
    obtain ⟨value, found⟩ := present key (List.mem_cons_self _ _)
    rw [List.filterMap_cons, found, Option.map_some', List.map_cons,
      ih fun other mem => present other (List.mem_cons_of_mem _ mem)]

/-- The order a `range` over a map visits its entries in: Go leaves it open, so it is any order
in which each entry comes once. -/
structure RangeOrder (V : Type) where
  order : StringMap V → List (String × V)
  perm : ∀ m, (order m).Perm (entriesSorted m)

/-- The range that visits the entries by increasing key. -/
def RangeOrder.sorted : RangeOrder V := ⟨entriesSorted, fun _ => List.Perm.refl _⟩

/-- A range visits exactly the entries of the map. -/
theorem RangeOrder.mem_order (range : RangeOrder V) {m : StringMap V} {key : String} {value : V} :
    (key, value) ∈ range.order m ↔ m.lookup key = some value :=
  (range.perm m).mem_iff.trans mem_entriesSorted

/-- A range visits each key once. -/
theorem RangeOrder.keys_nodup (range : RangeOrder V) (m : StringMap V) :
    ((range.order m).map Prod.fst).Nodup :=
  ((range.perm m).map Prod.fst).nodup_iff.mpr ((entriesSorted_keys m).symm ▸ sortedKeys_nodup m)

theorem RangeOrder.not_mem_keys (range : RangeOrder V) {m : StringMap V} {key : String} :
    key ∉ (range.order m).map Prod.fst ↔ m.lookup key = none := by
  simp only [List.mem_map, not_exists, not_and, Prod.forall]
  constructor
  · intro absent
    cases found : m.lookup key with
    | none => rfl
    | some value => exact absurd rfl (absent key value (range.mem_order.mpr found))
  · intro none other value mem same
    subst same
    simp [range.mem_order.mp mem] at none

end Maps

/-! ### Writing and reading Go values -/

section Codec

variable {T E V : Type}

/-- `json.Unmarshal` into a Go value of `string` kind and type `goType`: a string sets it,
`null` leaves it as it was. -/
def decodeString (goType : String) (current : String) : JsonValue → Except DecodeError String
  | .string value => .ok value
  | .null => .ok current
  | other => .error (typeError other goType)

/-- `json.Marshal` of a map with string keys: `null` for a nil map, else an object with the
entries by increasing key. -/
def encodeMap (encodeElem : V → JsonValue) : Option (StringMap V) → JsonValue
  | none => .null
  | some m => .object ((entriesSorted m).map fun entry => (entry.1, encodeElem entry.2))

/-- `json.Unmarshal` into a map with string keys: `null` sets it to nil; an object stores each
member, in order, into the map or a new one if it is nil, each value decoded into a zero
element. -/
def decodeMap (goType : String) (zero : V) (decodeElem : V → JsonValue → Except DecodeError V)
    (current : Option (StringMap V)) : JsonValue → Except DecodeError (Option (StringMap V))
  | .null => .ok none
  | .object members => some <$> members.foldlM
      (fun m member => (fun elem => m.insert member.1 elem) <$> decodeElem zero member.2)
      (current.getD ∅)
  | other => .error (typeError other goType)

/-- `json.Unmarshal` into a pointer: `null` sets it to nil; anything else decodes into what it
points to, a new zero value if it is nil. -/
def decodePointer (zero : E) (decodeElem : E → JsonValue → Except DecodeError E)
    (current : Option E) : JsonValue → Except DecodeError (Option E)
  | .null => .ok none
  | other => some <$> decodeElem (current.getD zero) other

/-- A field of a struct of type `T`, of type `A`, as `encoding/json` sees it: its JSON name, the
field itself, how its value is written (`none`: left out by `omitempty`), and how a member's
value decodes into its current value. -/
structure Field (T A : Type) where
  name : String
  get : T → A
  set : T → A → T
  encode : A → Option JsonValue
  decode : A → JsonValue → Except DecodeError A

/-- The fields of a struct, in the order of its declaration. -/
abbrev Fields (T : Type) := List (Σ A : Type, Field T A)

/-- Two names are equal under case folding. Only ASCII letters fold here; Go's `EqualFold` also
folds non-ASCII letters (U+212A KELVIN SIGN to `k`, U+017F LONG S to `s`, and others), which the
modelled structs' ASCII field names never meet. -/
def equalFold (name key : String) : Bool :=
  name.toList.map Char.toLower == key.toList.map Char.toLower

/-- The field a member's name selects: the first of exactly that name, else the first whose
name equals it under case folding. -/
def Fields.lookup (fields : Fields T) (key : String) : Option (Σ A : Type, Field T A) :=
  match fields.find? fun field => field.2.name == key with
  | some field => some field
  | none => fields.find? fun field => equalFold field.2.name key

/-- One member of an object, decoded into the field its name selects, in place; a member no
field takes is skipped. -/
def decodeMember (fields : Fields T) (current : T) (member : String × JsonValue) :
    Except DecodeError T :=
  match fields.lookup member.1 with
  | some ⟨_, field⟩ => field.set current <$> field.decode (field.get current) member.2
  | none => .ok current

/-- `json.Unmarshal` into a struct of type `goType`: `null` leaves it as it was; an object
decodes its members in order. -/
def decodeStruct (goType : String) (fields : Fields T) (current : T) :
    JsonValue → Except DecodeError T
  | .null => .ok current
  | .object members => members.foldlM (decodeMember fields) current
  | other => .error (typeError other goType)

/-- The members `json.Marshal` writes for a struct: its fields in order, less those `omitempty`
leaves out. -/
def members (fields : Fields T) (value : T) : List (String × JsonValue) :=
  fields.filterMap fun field => (field.2.encode (field.2.get value)).map (field.2.name, ·)

/-- `json.Marshal` of a struct. -/
def encodeStruct (fields : Fields T) (value : T) : JsonValue := .object (members fields value)

/-- A `string`-kinded field of type `goType`, `omitempty` or not. -/
def stringField (name : String) (omitempty : Bool) (goType : String) (get : T → String)
    (set : T → String → T) : Σ A : Type, Field T A :=
  ⟨String, name, get, set, fun value => if omitempty && value == "" then none else
    some (.string value), decodeString goType⟩

/-- A `map[string]string` field. -/
def stringMapField (name : String) (get : T → Option (StringMap String))
    (set : T → Option (StringMap String) → T) : Σ A : Type, Field T A :=
  ⟨Option (StringMap String), name, get, set, fun value => some (encodeMap .string value),
    decodeMap "map[string]string" "" (decodeString "string")⟩

/-- An `omitempty` field that points to a struct of type `goType`, whose zero value is `zero`. -/
def pointerField (name goType : String) (fields : Fields E) (zero : E) (get : T → Option E)
    (set : T → Option E → T) : Σ A : Type, Field T A :=
  ⟨Option E, name, get, set, fun value => value.map (encodeStruct fields),
    decodePointer zero (decodeStruct goType fields)⟩

/-- A field that holds a struct of type `goType`. -/
def structField (name goType : String) (fields : Fields E) (get : T → E) (set : T → E → T) :
    Σ A : Type, Field T A :=
  ⟨E, name, get, set, fun value => some (encodeStruct fields value), decodeStruct goType fields⟩

end Codec

/-! ### What reads back what it wrote -/

section RoundTrip

variable {T E V : Type}

/-- A field reads back what it writes, into its zero value `zero`, and leaves out only
`zero`. -/
def Field.RoundTrips {A : Type} (field : Field T A) (zero : A) : Prop :=
  (∀ value json, field.encode value = some json → field.decode zero json = .ok value) ∧
    ∀ value, field.encode value = none → value = zero

theorem ok_bind {α β : Type} (a : α) (f : α → Except DecodeError β) :
    (Except.ok a >>= f) = f a := rfl

/-- What makes a struct read back what it wrote, from its zero value `zero`: each field's name
selects it; writing a field with its own value changes nothing, and writing one leaves the
later fields as they were; each field reads back what it writes into the zero value's field; and
a struct is its fields. -/
structure Fields.Lawful (fields : Fields T) (zero : T) : Prop where
  lookup : ∀ field ∈ fields, fields.lookup field.2.name = some field
  set_get : ∀ field ∈ fields, ∀ t, field.2.set t (field.2.get t) = t
  independent : fields.Pairwise fun field later => ∀ t value,
    later.2.get (field.2.set t value) = later.2.get t
  roundTrips : ∀ field ∈ fields, field.2.RoundTrips (field.2.get zero)
  rebuild : ∀ t, fields.foldl (fun acc field => field.2.set acc (field.2.get t)) zero = t

/-- Distinct names select their own fields. -/
theorem Fields.lookup_of_nodup {fields : Fields T}
    (distinct : (fields.map fun field => field.2.name).Nodup) :
    ∀ field ∈ fields, fields.lookup field.2.name = some field := by
  intro field mem
  have exact : fields.find? (fun other => other.2.name == field.2.name) = some field := by
    have present : (fields.find? fun other => other.2.name == field.2.name).isSome :=
      List.find?_isSome.mpr ⟨field, mem, beq_self_eq_true _⟩
    obtain ⟨found, hit⟩ := Option.isSome_iff_exists.mp present
    have sameName : found.2.name = field.2.name := by simpa using List.find?_some hit
    rw [hit, List.inj_on_of_nodup_map distinct (List.mem_of_find?_eq_some hit) mem sameName]
  simp only [Fields.lookup, exact]

/-- A member no field takes leaves the struct as it was. -/
theorem foldlM_skipped {fields : Fields T} {skipped : List (String × JsonValue)}
    (none : ∀ member ∈ skipped, fields.lookup member.1 = none) (current : T) :
    skipped.foldlM (decodeMember fields) current = .ok current := by
  induction skipped with
  | nil => rfl
  | cons member rest ih =>
    rw [List.foldlM_cons, decodeMember, none member (List.mem_cons_self _ _)]
    exact ih fun other mem => none other (List.mem_cons_of_mem _ mem)

/-- Every member a struct writes is named by one of its fields. -/
theorem mem_members {fields : Fields T} {s : T} {member : String × JsonValue}
    (mem : member ∈ members fields s) : ∃ field ∈ fields, member.1 = field.2.name := by
  obtain ⟨field, inFields, written⟩ := List.mem_filterMap.mp mem
  obtain ⟨json, -, rfl⟩ := Option.map_eq_some'.mp written
  exact ⟨field, inFields, rfl⟩

/-- The members of the fields `rest` decode, into a struct whose `rest` fields are still zero,
to the struct with those fields written. -/
theorem foldlM_members {fields rest : Fields T} {zero : T} (s : T)
    (lookup : ∀ field ∈ rest, fields.lookup field.2.name = some field)
    (set_get : ∀ field ∈ rest, ∀ t, field.2.set t (field.2.get t) = t)
    (independent : rest.Pairwise fun field later => ∀ t value,
      later.2.get (field.2.set t value) = later.2.get t)
    (roundTrips : ∀ field ∈ rest, field.2.RoundTrips (field.2.get zero))
    (current : T) (untouched : ∀ field ∈ rest, field.2.get current = field.2.get zero) :
    (members rest s).foldlM (decodeMember fields) current =
      .ok (rest.foldl (fun acc field => field.2.set acc (field.2.get s)) current) := by
  induction rest generalizing current with
  | nil => rfl
  | cons field later ih =>
    obtain ⟨A, f⟩ := field
    have here := List.mem_cons_self ⟨A, f⟩ later
    have there : ∀ other ∈ later, other ∈ ⟨A, f⟩ :: later :=
      fun _ => List.mem_cons_of_mem _
    obtain ⟨decodes, omitted⟩ := roundTrips ⟨A, f⟩ here
    have next := ih (fun g mem => lookup g (there g mem)) (fun g mem => set_get g (there g mem))
      (List.pairwise_cons.mp independent).2 (fun g mem => roundTrips g (there g mem))
    rw [List.foldl_cons]
    cases written : f.encode (f.get s) with
    | none =>
      have kept : f.set current (f.get s) = current := by
        rw [omitted _ written, ← untouched ⟨A, f⟩ here, set_get ⟨A, f⟩ here]
      rw [members, List.filterMap_cons, written, Option.map_none', ← members, kept]
      exact next current fun g mem => untouched g (there g mem)
    | some json =>
      rw [members, List.filterMap_cons, written, Option.map_some', ← members, List.foldlM_cons]
      simp only [decodeMember, lookup ⟨A, f⟩ here]
      rw [untouched ⟨A, f⟩ here, decodes _ _ written]
      exact next _ fun g mem =>
        ((List.pairwise_cons.mp independent).1 g mem current _).trans (untouched g (there g mem))

/-- **A struct reads back what it wrote**: decoding into the zero value of a lawful struct the
members it writes gives the struct back, whatever members no field takes stand before or after
them. -/
theorem decodeStruct_encodeStruct {fields : Fields T} {zero : T} (lawful : fields.Lawful zero)
    (goType : String) (s : T) (before after : List (String × JsonValue))
    (skipped : ∀ member ∈ before ++ after, fields.lookup member.1 = none) :
    decodeStruct goType fields zero (.object (before ++ members fields s ++ after)) = .ok s := by
  have skip : ∀ {part}, part ⊆ before ++ after → ∀ current,
      part.foldlM (decodeMember fields) current = .ok current :=
    fun sub => foldlM_skipped fun member mem => skipped member (sub mem)
  rw [decodeStruct, List.foldlM_append, List.foldlM_append,
    skip (List.subset_append_left _ _), ok_bind, foldlM_members s lawful.lookup
      lawful.set_get lawful.independent lawful.roundTrips zero fun _ _ => rfl,
    ok_bind, skip (List.subset_append_right _ _), lawful.rebuild]

/-- After inserting entries one after another, a key none of them has reads from the map
inserted into. -/
theorem lookup_foldl_insert_of_not_mem {entries : List (String × V)} {key : String}
    (absent : key ∉ entries.map Prod.fst) (acc : StringMap V) :
    (entries.foldl (fun m entry => m.insert entry.1 entry.2) acc).lookup key = acc.lookup key := by
  induction entries generalizing acc with
  | nil => rfl
  | cons entry rest ih =>
    rw [List.map_cons, List.mem_cons, not_or] at absent
    rw [List.foldl_cons, ih absent.2, Finmap.lookup_insert_of_ne _ absent.1]

/-- After inserting entries of distinct keys one after another, a key reads its entry. -/
theorem lookup_foldl_insert_of_mem {entries : List (String × V)}
    (distinct : (entries.map Prod.fst).Nodup) {key : String} {value : V}
    (mem : (key, value) ∈ entries) (acc : StringMap V) :
    (entries.foldl (fun m entry => m.insert entry.1 entry.2) acc).lookup key = some value := by
  induction entries generalizing acc with
  | nil => cases mem
  | cons entry rest ih =>
    rw [List.map_cons, List.nodup_cons] at distinct
    rw [List.foldl_cons]
    rcases List.mem_cons.mp mem with rfl | later
    · rw [lookup_foldl_insert_of_not_mem distinct.1, Finmap.lookup_insert]
    · exact ih distinct.2 later _

/-- The map of a map's entries, each value changed by `h`, looks every key up as the map
does. -/
theorem lookup_foldl_entriesSorted {W : Type} (m : StringMap V) (h : V → W) (key : String) :
    (((entriesSorted m).map fun entry => (entry.1, h entry.2)).foldl
      (fun acc entry => acc.insert entry.1 entry.2) (∅ : StringMap W)).lookup key =
      (m.lookup key).map h := by
  cases found : m.lookup key with
  | none =>
    refine (lookup_foldl_insert_of_not_mem (fun mem => ?_) ∅).trans (Finmap.lookup_empty _)
    simp only [List.map_map, List.mem_map, Function.comp_apply, Prod.exists] at mem
    obtain ⟨key', value, entry, rfl⟩ := mem
    rw [mem_entriesSorted.mp entry] at found
    cases found
  | some value =>
    have distinct : (((entriesSorted m).map fun entry => (entry.1, h entry.2)).map Prod.fst).Nodup
        := by
      rw [List.map_map]
      exact (entriesSorted_keys m).symm ▸ sortedKeys_nodup m
    exact lookup_foldl_insert_of_mem distinct
      (List.mem_map.mpr ⟨(key, value), mem_entriesSorted.mpr found, rfl⟩) ∅

/-- Members written from entries, each decoded to `h` of the value it was written from, and
inserted in turn. -/
theorem foldlM_insert_map {W : Type} (encodeElem : V → JsonValue)
    (decode : JsonValue → Except DecodeError W) (h : V → W)
    (decodes : ∀ value, decode (encodeElem value) = .ok (h value)) (entries : List (String × V))
    (acc : StringMap W) :
    (entries.map fun entry => (entry.1, encodeElem entry.2)).foldlM
        (fun m member => (fun elem => m.insert member.1 elem) <$> decode member.2) acc =
      .ok ((entries.map fun entry => (entry.1, h entry.2)).foldl
        (fun m entry => m.insert entry.1 entry.2) acc) := by
  induction entries generalizing acc with
  | nil => rfl
  | cons entry rest ih =>
    rw [List.map_cons, List.foldlM_cons, decodes]
    exact ih _

/-- **A map reads back itself**: a nil map writes `null`, which reads back nil, and a map writes
its entries, which read back into a new map, when each value reads back from a zero element. -/
theorem decodeMap_encodeMap (goType : String) {zero : V}
    {encodeElem : V → JsonValue} {decodeElem : V → JsonValue → Except DecodeError V}
    (elem : ∀ value, decodeElem zero (encodeElem value) = .ok value) (m : Option (StringMap V)) :
    decodeMap goType zero decodeElem none (encodeMap encodeElem m) = .ok m := by
  cases m with
  | none => rfl
  | some m =>
    rw [encodeMap, decodeMap, Option.getD_none, foldlM_insert_map _ _ id elem]
    refine congrArg (fun m => Except.ok (some m)) (Finmap.ext_lookup fun key => ?_)
    rw [lookup_foldl_entriesSorted]
    cases m.lookup key <;> rfl

/-- A map read into `map[string]json.RawMessage` keeps each value as it was written. -/
theorem decodeMap_encodeMap_raw (goType : String) (zero : JsonValue) (encodeElem : V → JsonValue)
    (m : StringMap V) :
    ∃ raw, decodeMap goType zero (fun _ json => .ok json) none (encodeMap encodeElem (some m)) =
      .ok (some raw) ∧ ∀ key, raw.lookup key = (m.lookup key).map encodeElem := by
  rw [encodeMap, decodeMap, Option.getD_none,
    foldlM_insert_map encodeElem (fun json => .ok json) encodeElem fun _ => rfl]
  exact ⟨_, rfl, lookup_foldl_entriesSorted m encodeElem⟩

/-- A `range` over entries of distinct keys that each decode to the entry of `m` inserts into
`acc` the entries of `m` at those keys. -/
theorem foldlM_range_lookup {W : Type} {m : StringMap W}
    (decode : JsonValue → Except DecodeError W) (visited : List (String × JsonValue))
    (distinct : (visited.map Prod.fst).Nodup)
    (decodes : ∀ entry ∈ visited, ∃ value, m.lookup entry.1 = some value ∧
      decode entry.2 = .ok value) (acc : StringMap W) :
    ∃ result, visited.foldlM
        (fun result entry => (fun value => result.insert entry.1 value) <$> decode entry.2) acc =
      .ok result ∧ ∀ key, result.lookup key =
        if key ∈ visited.map Prod.fst then m.lookup key else acc.lookup key := by
  induction visited generalizing acc with
  | nil => exact ⟨acc, rfl, fun key => rfl⟩
  | cons entry rest ih =>
    rw [List.map_cons, List.nodup_cons] at distinct
    obtain ⟨value, found, decoded⟩ := decodes entry (List.mem_cons_self _ _)
    obtain ⟨result, ran, lookups⟩ :=
      ih distinct.2 (fun other mem => decodes other (List.mem_cons_of_mem _ mem))
        (acc.insert entry.1 value)
    refine ⟨result, by rw [List.foldlM_cons, decoded]; exact ran, fun key => ?_⟩
    simp only [lookups, List.map_cons, List.mem_cons]
    by_cases same : key = entry.1
    · subst same
      simp [distinct.1, Finmap.lookup_insert, found]
    · simp only [same, false_or]
      split_ifs
      · rfl
      · exact Finmap.lookup_insert_of_ne _ same

/-- **A `range` over a map, in any order, that decodes each value to the entry of `m` at its
key, inserting into a new map, gives `m`**, when `m` has no other keys. -/
theorem foldlM_range {W : Type} {raw : StringMap JsonValue} {m : StringMap W}
    (decode : JsonValue → Except DecodeError W) (visited : List (String × JsonValue))
    (perm : visited.Perm (entriesSorted raw))
    (decodes : ∀ key json, raw.lookup key = some json → ∃ value, m.lookup key = some value ∧
      decode json = .ok value)
    (keys : ∀ key, raw.lookup key = none → m.lookup key = none) :
    visited.foldlM
        (fun result entry => (fun value => result.insert entry.1 value) <$> decode entry.2) ∅ =
      .ok m := by
  have distinct : (visited.map Prod.fst).Nodup :=
    (perm.map Prod.fst).nodup_iff.mpr ((entriesSorted_keys raw).symm ▸ sortedKeys_nodup raw)
  obtain ⟨result, ran, lookups⟩ := foldlM_range_lookup decode visited distinct
    (fun entry mem => decodes entry.1 entry.2 (mem_entriesSorted.mp (perm.subset mem))) ∅
  rw [ran]
  refine congrArg Except.ok (Finmap.ext_lookup fun key => ?_)
  rw [lookups]
  split_ifs with visits
  · rfl
  · rw [Finmap.lookup_empty, keys key]
    cases found : raw.lookup key with
    | none => rfl
    | some json =>
      exact absurd (List.mem_map.mpr ⟨(key, json),
        perm.symm.subset (mem_entriesSorted.mpr found), rfl⟩) visits

end RoundTrip

/-! ### A range over a map decoding each value, in any order -/

section Range

variable {W : Type} (decode : JsonValue → Except DecodeError W)

/-- A range over entries of distinct keys that inserts each decoded value ends, when it ends
well, with each entry's value decoded at its key and `acc` elsewhere. -/
theorem foldlM_insert_lookup {visited : List (String × JsonValue)}
    (distinct : (visited.map Prod.fst).Nodup) {acc m : StringMap W}
    (ran : visited.foldlM
      (fun result entry => (fun value => result.insert entry.1 value) <$> decode entry.2) acc =
        .ok m) :
    ∀ key, (key ∉ visited.map Prod.fst → m.lookup key = acc.lookup key) ∧
      ∀ json, (key, json) ∈ visited →
        ∃ value, decode json = .ok value ∧ m.lookup key = some value := by
  induction visited generalizing acc with
  | nil =>
    cases ran
    exact fun key => ⟨fun _ => rfl, fun _ mem => absurd mem (List.not_mem_nil _)⟩
  | cons entry rest ih =>
    rw [List.map_cons, List.nodup_cons] at distinct
    rw [List.foldlM_cons] at ran
    cases decoded : decode entry.2 with
    | error err => rw [decoded] at ran; cases ran
    | ok value =>
      rw [decoded] at ran
      have later := ih distinct.2 ran
      intro key
      by_cases same : key = entry.1
      · subst same
        refine ⟨fun visits => absurd (List.mem_cons_self _ _) visits, fun json mem => ?_⟩
        have first : json = entry.2 := by
          rcases List.mem_cons.mp mem with here | there
          · rw [← here]
          · exact absurd (List.mem_map.mpr ⟨_, there, rfl⟩) distinct.1
        subst first
        refine ⟨value, decoded, ?_⟩
        rw [(later entry.1).1 distinct.1, Finmap.lookup_insert]
      · refine ⟨fun visits => ?_, fun json mem => ?_⟩
        · rw [(later key).1 fun inRest => visits (List.mem_cons_of_mem _ inRest),
            Finmap.lookup_insert_of_ne _ same]
        · rcases List.mem_cons.mp mem with here | there
          · exact absurd (congrArg Prod.fst here) same
          · exact (later key).2 json there

/-- **A range from a new map over entries of distinct keys, in whatever order, ends well with
`m` exactly when every value decodes and `m` holds the decoded values at their keys and nothing
else.** -/
theorem foldlM_range_ok_iff {visited : List (String × JsonValue)}
    (distinct : (visited.map Prod.fst).Nodup) (m : StringMap W) :
    visited.foldlM
        (fun result entry => (fun value => result.insert entry.1 value) <$> decode entry.2) ∅ =
      .ok m ↔
    (∀ key json, (key, json) ∈ visited → ∃ value, decode json = .ok value ∧
      m.lookup key = some value) ∧
      ∀ key, key ∉ visited.map Prod.fst → m.lookup key = none := by
  constructor
  · intro ran
    have lookups := foldlM_insert_lookup decode distinct ran
    exact ⟨fun key => (lookups key).2, fun key visits => (lookups key).1 visits⟩
  · rintro ⟨decodes, others⟩
    obtain ⟨result, ran, lookups⟩ := foldlM_range_lookup decode visited distinct
      (fun entry mem => (decodes entry.1 entry.2 mem).imp fun _ both => ⟨both.2, both.1⟩) ∅
    rw [ran]
    refine congrArg Except.ok (Finmap.ext_lookup fun key => ?_)
    rw [lookups]
    split_ifs with visits
    · rfl
    · rw [Finmap.lookup_empty, others key visits]

/-- A range that fails fails with the error of one of the values it visits. -/
theorem foldlM_insert_error {visited : List (String × JsonValue)} {acc : StringMap W}
    {err : DecodeError}
    (ran : visited.foldlM
      (fun result entry => (fun value => result.insert entry.1 value) <$> decode entry.2) acc =
        .error err) :
    ∃ entry ∈ visited, decode entry.2 = .error err := by
  induction visited generalizing acc with
  | nil => cases ran
  | cons entry rest ih =>
    rw [List.foldlM_cons] at ran
    cases decoded : decode entry.2 with
    | error first =>
      rw [decoded] at ran
      cases ran
      exact ⟨entry, List.mem_cons_self _ _, decoded⟩
    | ok value =>
      rw [decoded] at ran
      obtain ⟨other, mem, failed⟩ := ih ran
      exact ⟨other, List.mem_cons_of_mem _ mem, failed⟩

end Range

/-! ### Each kind of field reads back what it wrote -/

section Fields

variable {T E : Type}

theorem stringField_roundTrips (name : String) (omitempty : Bool) (goType : String)
    (get : T → String) (set : T → String → T) :
    (stringField name omitempty goType get set).2.RoundTrips "" := by
  refine ⟨fun (value : String) json written => ?_, fun (value : String) omitted => ?_⟩
  · simp only [stringField] at written
    split at written
    · cases written
    · cases written
      rfl
  · simp only [stringField] at omitted
    split at omitted
    · rename_i empty
      show value = ("" : String)
      exact beq_iff_eq.mp (Bool.and_eq_true_iff.mp empty).2
    · cases omitted

theorem stringMapField_roundTrips (name : String) (get : T → Option (StringMap String))
    (set : T → Option (StringMap String) → T) :
    (stringMapField name get set).2.RoundTrips none :=
  ⟨fun value _ written => by
    cases written
    exact decodeMap_encodeMap _ (fun _ => rfl) value, fun _ omitted => by cases omitted⟩

theorem pointerField_roundTrips (name goType : String) {fields : Fields E} {zero : E}
    (lawful : fields.Lawful zero) (get : T → Option E) (set : T → Option E → T) :
    (pointerField name goType fields zero get set).2.RoundTrips none := by
  refine ⟨fun value json written => ?_, fun value omitted => ?_⟩
  · cases value with
    | none => cases written
    | some pointee =>
      cases written
      have decoded := decodeStruct_encodeStruct lawful goType pointee [] [] nofun
      rw [List.nil_append, List.append_nil] at decoded
      show some <$> decodeStruct goType fields zero (encodeStruct fields pointee) = _
      rw [encodeStruct, decoded]
      rfl
  · cases value with
    | none => rfl
    | some _ => cases omitted

theorem structField_roundTrips (name goType : String) {fields : Fields E} {zero : E}
    (lawful : fields.Lawful zero) (get : T → E) (set : T → E → T) :
    (structField name goType fields get set).2.RoundTrips zero := by
  refine ⟨fun value json written => ?_, fun _ omitted => by cases omitted⟩
  cases written
  have decoded := decodeStruct_encodeStruct lawful goType value [] [] nofun
  rwa [List.nil_append, List.append_nil] at decoded

end Fields

end A2aGo.Json

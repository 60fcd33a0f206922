import SorobanDevkit.Library.JsonValue

/-!
# Reading JSON values

How the values of types are written as JSON values and read back. A record is written as an object
with a member for each field, some of which may be left out, and read from an object, whatever the
order of its members and whatever other members it has, or from an array with its fields in order.
An enumeration is written as the record of its variant with a tag in front.

What is read does not depend on the order of members.

## Main results

* `JsonCodec.read_rebuild` — what is written and rebuilt is read back.
* `Fields.readValue_stable` — a record is read alike from objects that are the same.
* `Fields.readValue_object` — a record is read from an object with its members.
-/

namespace JsonValue

variable {N : Type}

/-- The value of the first member of a key. -/
def get (members : List (String × JsonValue N)) (key : String) : Option (JsonValue N) :=
  (members.find? (·.1 = key)).map Prod.snd

/-- A key occurs at most once. -/
def Once (members : List (String × JsonValue N)) (key : String) : Prop :=
  members.countP (·.1 = key) ≤ 1

instance (members : List (String × JsonValue N)) (key : String) : Decidable (Once members key) :=
  inferInstanceAs (Decidable (_ ≤ _))

theorem get_cons (e : String × JsonValue N) (members : List (String × JsonValue N)) (key : String) :
    get (e :: members) key = if e.1 = key then some e.2 else get members key := by
  rw [get, List.find?_cons]
  by_cases hkey : e.1 = key
  · rw [if_pos hkey, decide_eq_true hkey]
    rfl
  · rw [if_neg hkey, decide_eq_false hkey]
    rfl

theorem get_append (members members' : List (String × JsonValue N)) (key : String) :
    get (members ++ members') key = (get members key).or (get members' key) := by
  rw [get, List.find?_append, Option.map_or]
  rfl

theorem get_eq_none_iff {members : List (String × JsonValue N)} {key : String} :
    get members key = none ↔ key ∉ members.map Prod.fst := by
  rw [get, Option.map_eq_none_iff, List.find?_eq_none, List.mem_map, not_exists]
  refine forall_congr' fun e => ?_
  rw [decide_eq_true_iff, not_and]

/-- A key that occurs once has its value wherever it stands. -/
theorem get_eq_some_iff {members : List (String × JsonValue N)} {key : String} {v : JsonValue N}
    (h : Once members key) : get members key = some v ↔ (key, v) ∈ members := by
  induction members with
  | nil => exact iff_of_false (fun h => nomatch h) List.not_mem_nil
  | cons e members ih =>
    obtain ⟨key', w⟩ := e
    rw [Once, List.countP_cons] at h
    by_cases hkey : key' = key
    · subst hkey
      simp only [decide_true, if_true] at h
      have hnone : get members key' = none := by
        rw [get_eq_none_iff, List.mem_map]
        rintro ⟨e, he, hekey⟩
        have hpos : 0 < members.countP (·.1 = key') :=
          List.countP_pos_iff.mpr ⟨e, he, decide_eq_true hekey⟩
        omega
      rw [get_cons, if_pos rfl, Option.some_inj, List.mem_cons, Prod.mk.injEq]
      constructor
      · rintro rfl
        exact .inl ⟨rfl, rfl⟩
      · rintro (⟨-, rfl⟩ | hmem)
        · rfl
        · exact absurd (List.mem_map_of_mem hmem) (get_eq_none_iff.mp hnone)
    · have honce : Once members key := by
        rw [Once]
        omega
      rw [get_cons, if_neg hkey, ih honce, List.mem_cons, Prod.mk.injEq]
      exact ⟨.inr, fun h => h.resolve_left fun heq => hkey heq.1.symm⟩

theorem once_of_perm {members members' : List (String × JsonValue N)} (h : members.Perm members')
    (key : String) : Once members key ↔ Once members' key := by
  rw [Once, Once, h.countP_eq]

theorem get_of_perm {members members' : List (String × JsonValue N)} (h : members.Perm members')
    {key : String} (honce : Once members key) : get members key = get members' key := by
  refine Option.ext fun v => ?_
  rw [get_eq_some_iff honce, get_eq_some_iff ((once_of_perm h key).mp honce), h.mem_iff]

theorem once_of_nodup {members : List (String × JsonValue N)}
    (h : (members.map Prod.fst).Nodup) (key : String) : Once members key := by
  have hcount : members.countP (·.1 = key) = (members.map Prod.fst).count key := by
    rw [List.count, List.countP_map]
    exact List.countP_congr fun e _ => by simp
  rw [Once, hcount]
  exact List.nodup_iff_count.mp h key

/-- The values that two maps give for a key are the same. -/
def SameValue (o o' : Option (JsonValue N)) : Prop := Option.Rel Reordered o o'

theorem sameValue_refl (o : Option (JsonValue N)) : SameValue o o := by
  cases o with
  | none => exact .none
  | some v => exact .some (.refl v)

theorem sameValue_get {members members' : List (String × JsonValue N)}
    (h : List.Forall₂ SameMember members members') (key : String) :
    SameValue (get members key) (get members' key) := by
  induction h with
  | nil => exact .none
  | @cons e e' members members' he _ ih =>
    obtain ⟨key', v⟩ := e
    obtain ⟨key'', w⟩ := e'
    obtain ⟨rfl, hvw⟩ := he
    rw [get_cons, get_cons]
    by_cases hkey : key' = key
    · rw [if_pos hkey, if_pos hkey]
      exact .some hvw
    · rw [if_neg hkey, if_neg hkey]
      exact ih

theorem once_iff_of_forall₂ {members members' : List (String × JsonValue N)}
    (h : List.Forall₂ SameMember members members') (key : String) :
    Once members key ↔ Once members' key := by
  have hcount : members.countP (·.1 = key) = members'.countP (·.1 = key) := by
    induction h with
    | nil => rfl
    | cons he _ ih => rw [List.countP_cons, List.countP_cons, ih, he.1]
  rw [Once, Once, hcount]

theorem forall₂_sameMember_replace (before after : List (String × JsonValue N)) (key : String)
    {v w : JsonValue N} (h : v.Reordered w) :
    List.Forall₂ SameMember (before ++ (key, v) :: after) (before ++ (key, w) :: after) := by
  have hrefl (members : List (String × JsonValue N)) : List.Forall₂ SameMember members members :=
    List.forall₂_same.mpr fun e _ => ⟨rfl, .refl _⟩
  exact List.rel_append (hrefl before) (.cons ⟨rfl, h⟩ (hrefl after))

end JsonValue

open JsonValue

/-! ### Types with JSON values -/

/-- A type whose values are written as JSON values and read back, those that are valid. -/
structure JsonCodec (N α : Type) where
  write : α → JsonValue N
  read : JsonValue N → Option α
  Valid : α → Prop
  read_write : ∀ a, Valid a → read (write a) = some a
  stable : ∀ {v w : JsonValue N}, v.Reordered w → read v = read w
  distinct : ∀ a, (write a).DistinctKeys
  write_ne_null : ∀ a, write a ≠ .null

namespace JsonCodec

variable {N α β : Type}

/-- **What is written and rebuilt is read back.** -/
theorem read_of_reordered (c : JsonCodec N α) {a : α} (ha : c.Valid a) {v : JsonValue N}
    (h : (c.write a).Reordered v) : c.read v = some a :=
  (c.stable h).symm.trans (c.read_write a ha)

/-- What is read only from numbers and texts does not depend on the order of members. -/
theorem stable_of_scalar {read : JsonValue N → Option α}
    (harray : ∀ items, read (.array items) = none)
    (hobject : ∀ members, read (.object members) = none) {v w : JsonValue N}
    (h : v.Reordered w) : read v = read w := by
  induction h with
  | refl => rfl
  | trans _ _ ihu ihv => exact ihu.trans ihv
  | object => rw [hobject, hobject]
  | item => rw [harray, harray]
  | member => rw [hobject, hobject]

/-- The text of a JSON value. -/
def readString : JsonValue N → Option String
  | .string s => some s
  | _ => none

/-- Texts. -/
def string : JsonCodec N String where
  write := .string
  read := readString
  Valid _ := True
  read_write _ _ := rfl
  stable := stable_of_scalar (fun _ => rfl) fun _ => rfl
  distinct _ := trivial
  write_ne_null _ h := nomatch h

/-- The truth value of a JSON value. -/
def readBool : JsonValue N → Option Bool
  | .bool b => some b
  | _ => none

/-- Truth values. -/
def bool : JsonCodec N Bool where
  write := .bool
  read := readBool
  Valid _ := True
  read_write _ _ := rfl
  stable := stable_of_scalar (fun _ => rfl) fun _ => rfl
  distinct _ := trivial
  write_ne_null _ h := nomatch h

/-- What is read of the number of a JSON value. -/
def readNumber (ofNumber : N → Option α) : JsonValue N → Option α
  | .number n => ofNumber n
  | _ => none

/-- Values that are written as numbers. -/
def number (toNumber : α → N) (ofNumber : N → Option α) (Valid : α → Prop)
    (h : ∀ a, Valid a → ofNumber (toNumber a) = some a) : JsonCodec N α where
  write a := .number (toNumber a)
  read := readNumber ofNumber
  Valid := Valid
  read_write := h
  stable := stable_of_scalar (fun _ => rfl) fun _ => rfl
  distinct _ := trivial
  write_ne_null _ h := nomatch h

/-- The items of an array. -/
def readList (c : JsonCodec N α) : JsonValue N → Option (List α)
  | .array items => items.mapM c.read
  | _ => none

theorem readList_stable (c : JsonCodec N α) {v w : JsonValue N} (h : v.Reordered w) :
    readList c v = readList c w := by
  induction h with
  | refl => rfl
  | trans _ _ ihu ihv => exact ihu.trans ihv
  | object => rfl
  | item before after h => rw [readList, readList, List.mapM_append, List.mapM_append,
      List.mapM_cons, List.mapM_cons, c.stable h]
  | member => rfl

theorem mapM_read_write (c : JsonCodec N α) {l : List α} (h : ∀ a ∈ l, c.Valid a) :
    (l.map c.write).mapM c.read = some l := by
  induction l with
  | nil => rfl
  | cons a l ih =>
    rw [List.forall_mem_cons] at h
    rw [List.map_cons, List.mapM_cons, c.read_write a h.1, ih h.2]
    rfl

/-- Lists. -/
def list (c : JsonCodec N α) : JsonCodec N (List α) where
  write l := .array (l.map c.write)
  read := readList c
  Valid l := ∀ a ∈ l, c.Valid a
  read_write _ h := c.mapM_read_write h
  stable := readList_stable c
  distinct _ := distinctItems_iff.mpr (List.forall_mem_map.mpr fun a _ => c.distinct a)
  write_ne_null _ h := nomatch h

end JsonCodec

/-! ### Fields -/

/-- A field of a record: the value that is written for it, if there is one, and what is read from
the value of its member, or if it has none. A field with a default may be missing at the end of an
array. -/
structure FieldCodec (N β : Type) where
  hasDefault : Bool
  write : β → Option (JsonValue N)
  read : Option (JsonValue N) → Option β
  Valid : β → Prop
  read_write : ∀ b, Valid b → read (write b) = some b
  stable : ∀ {o o' : Option (JsonValue N)}, SameValue o o' → read o = read o'
  distinct : ∀ b, ∀ v ∈ write b, v.DistinctKeys

namespace FieldCodec

variable {N β : Type} (c : JsonCodec N β)

/-- A value that is read from a member, or else is another. -/
def readOr (missing : Option β) : Option (JsonValue N) → Option β
  | some v => c.read v
  | none => missing

theorem readOr_stable (missing : Option β) {o o' : Option (JsonValue N)} (h : SameValue o o') :
    readOr c missing o = readOr c missing o' := by
  cases h with
  | none => rfl
  | some h => exact c.stable h

/-- A field that is always written and has to be there. -/
def required : FieldCodec N β where
  hasDefault := false
  write b := some (c.write b)
  read := readOr c none
  Valid := c.Valid
  read_write := c.read_write
  stable := readOr_stable c none
  distinct b _ h := Option.mem_some.mp h ▸ c.distinct b

/-- A field that is always written, and has a default. -/
def defaulted (default : β) : FieldCodec N β where
  hasDefault := true
  write b := some (c.write b)
  read := readOr c (some default)
  Valid := c.Valid
  read_write := c.read_write
  stable := readOr_stable c (some default)
  distinct b _ h := Option.mem_some.mp h ▸ c.distinct b

/-- A value that may be `null` or missing. -/
def readOption : Option (JsonValue N) → Option (Option β)
  | none => some none
  | some .null => some none
  | some v => (c.read v).map some

theorem readOption_of_ne_null {v : JsonValue N} (h : v ≠ .null) :
    readOption c (some v) = (c.read v).map some := by
  cases v with
  | null => exact absurd rfl h
  | _ => rfl

theorem reordered_null {v w : JsonValue N} (h : v.Reordered w) : v = .null ↔ w = .null := by
  induction h with
  | refl => rfl
  | trans _ _ ihu ihv => exact ihu.trans ihv
  | object => exact iff_of_false (fun h => nomatch h) fun h => nomatch h
  | item => exact iff_of_false (fun h => nomatch h) fun h => nomatch h
  | member => exact iff_of_false (fun h => nomatch h) fun h => nomatch h

theorem readOption_stable {o o' : Option (JsonValue N)} (h : SameValue o o') :
    readOption c o = readOption c o' := by
  cases h with
  | none => rfl
  | @some v w h =>
    by_cases hnull : v = .null
    · rw [hnull, (reordered_null h).mp hnull]
    · rw [readOption_of_ne_null c hnull,
        readOption_of_ne_null c (mt (reordered_null h).mpr hnull), c.stable h]

theorem readOption_write (b : β) (hb : c.Valid b) :
    readOption c (some (c.write b)) = some (some b) := by
  rw [readOption_of_ne_null c (c.write_ne_null b), c.read_write b hb]
  rfl

/-- A field that is left out if there is no value. -/
def optional : FieldCodec N (Option β) where
  hasDefault := true
  write o := o.map c.write
  read := readOption c
  Valid o := ∀ b ∈ o, c.Valid b
  read_write o h := by
    cases o with
    | none => rfl
    | some b => exact readOption_write c b (h b rfl)
  stable := readOption_stable c
  distinct o v h := by
    obtain ⟨b, -, rfl⟩ := Option.map_eq_some_iff.mp h
    exact c.distinct b

/-- A field that is written as `null` if there is no value. -/
def nullable : FieldCodec N (Option β) where
  hasDefault := false
  write o := some (o.elim .null c.write)
  read := readOption c
  Valid o := ∀ b ∈ o, c.Valid b
  read_write o h := by
    cases o with
    | none => rfl
    | some b => exact readOption_write c b (h b rfl)
  stable := readOption_stable c
  distinct o v h := by
    obtain rfl := Option.mem_some.mp h
    cases o with
    | none => exact trivial
    | some b => exact c.distinct b

end FieldCodec

/-! ### Records -/

/-- The fields of a record: their keys in order, with those that have a default, and what is read
from the values of their members. -/
structure Fields (N α : Type) where
  keys : List (String × Bool)
  read : (String → Option (JsonValue N)) → Option α
  stable : ∀ {g g' : String → Option (JsonValue N)},
    (∀ key ∈ keys.map Prod.fst, SameValue (g key) (g' key)) → read g = read g'

namespace Fields

variable {N α β : Type} (fields : Fields N α)

/-- The names of the fields. -/
def names : List String := fields.keys.map Prod.fst

/-- A record, from an object or from an array. -/
def readValue : JsonValue N → Option α
  | .object members =>
    if ∀ key ∈ fields.names, Once members key then fields.read (get members) else none
  | .array items =>
    if items.length ≤ fields.keys.length ∧ (fields.keys.drop items.length).all Prod.snd then
      fields.read (get (fields.names.zip items))
    else none
  | _ => none

/-- **A record is read from an object with its members.** -/
theorem readValue_object {members : List (String × JsonValue N)}
    (h : (members.map Prod.fst).Nodup) :
    fields.readValue (.object members) = fields.read (get members) :=
  if_pos fun key _ => once_of_nodup h key

theorem read_congr_of_forall₂ {members members' : List (String × JsonValue N)}
    (h : List.Forall₂ SameMember members members') :
    fields.read (get members) = fields.read (get members') :=
  fields.stable fun key _ => sameValue_get h key

theorem forall₂_replace (before after : List (JsonValue N)) {v w : JsonValue N}
    (h : v.Reordered w) : List.Forall₂ Reordered (before ++ v :: after) (before ++ w :: after) := by
  have hrefl (items : List (JsonValue N)) : List.Forall₂ Reordered items items :=
    List.forall₂_same.mpr fun v _ => .refl v
  exact List.rel_append (hrefl before) (.cons h (hrefl after))

theorem forall₂_zip (names : List String) {items items' : List (JsonValue N)}
    (h : List.Forall₂ Reordered items items') :
    List.Forall₂ SameMember (names.zip items) (names.zip items') := by
  induction h generalizing names with
  | nil =>
    rw [List.zip_nil_right]
    exact .nil
  | cons hvw _ ih =>
    cases names with
    | nil => exact .nil
    | cons name names =>
      rw [List.zip_cons_cons, List.zip_cons_cons]
      exact .cons ⟨rfl, hvw⟩ (ih names)

/-- **A record is read alike from objects that are the same.** -/
theorem readValue_stable {v w : JsonValue N} (h : v.Reordered w) :
    fields.readValue v = fields.readValue w := by
  induction h with
  | refl => rfl
  | trans _ _ ihu ihv => exact ihu.trans ihv
  | @object members members' h =>
    have honce : (∀ key ∈ fields.names, Once members key) ↔
        ∀ key ∈ fields.names, Once members' key :=
      forall₂_congr fun key _ => once_of_perm h key
    rw [readValue, readValue]
    by_cases hall : ∀ key ∈ fields.names, Once members key
    · rw [if_pos hall, if_pos (honce.mp hall)]
      exact fields.stable fun key hkey => get_of_perm h (hall key hkey) ▸ sameValue_refl _
    · rw [if_neg hall, if_neg (mt honce.mpr hall)]
  | item before after h =>
    have hitems := forall₂_replace before after h
    rw [readValue, readValue, fields.read_congr_of_forall₂ (forall₂_zip _ hitems),
      hitems.length_eq]
  | member before after key h =>
    have hmembers := forall₂_sameMember_replace before after key h
    have honce (key' : String) := once_iff_of_forall₂ hmembers key'
    rw [readValue, readValue, fields.read_congr_of_forall₂ hmembers]
    simp only [honce]

end Fields

/-- A record with its fields so far: from what its values are written, and what they are so far. -/
structure RecordCodec (N S α : Type) extends Fields N α where
  write : S → List (String × JsonValue N)
  value : S → α
  Valid : S → Prop
  keys_write : ∀ s, ((write s).map Prod.fst).Sublist (keys.map Prod.fst)
  read_write : (keys.map Prod.fst).Nodup → ∀ s, Valid s → read (get (write s)) = some (value s)
  distinct : ∀ s, ∀ e ∈ write s, e.2.DistinctKeys

namespace RecordCodec

variable {N S α β : Type}

/-- The record without fields. -/
def start (a : α) : RecordCodec N S α where
  keys := []
  read _ := some a
  stable _ := rfl
  write _ := []
  value _ := a
  Valid _ := True
  keys_write _ := List.nil_sublist _
  read_write _ _ _ := rfl
  distinct _ _ h := absurd h List.not_mem_nil

variable (r : RecordCodec N S (β → α)) (key : String) (c : FieldCodec N β) (proj : S → β)

/-- What is read of a record with another field. -/
def readField (g : String → Option (JsonValue N)) : Option α := do
  let f ← r.read g
  let b ← c.read (g key)
  return f b

/-- The member of a field, if it is written. -/
def fieldMember (s : S) : List (String × JsonValue N) :=
  ((c.write (proj s)).map fun v => (key, v)).toList

theorem keys_fieldMember (s : S) : (fieldMember key c proj s).map Prod.fst ⊆ [key] := by
  rw [fieldMember]
  cases c.write (proj s) with
  | none => exact List.nil_subset _
  | some v => exact List.Subset.refl _

theorem get_fieldMember (s : S) : get (fieldMember key c proj s) key = c.write (proj s) := by
  rw [fieldMember]
  cases c.write (proj s) with
  | none => rfl
  | some v => exact (get_cons _ _ _).trans (if_pos rfl)

variable {r key} in
theorem readField_write (hkeys : ((r.keys ++ [(key, c.hasDefault)]).map Prod.fst).Nodup) (s : S)
    (hs : r.Valid s) (hfield : c.Valid (proj s)) :
    readField r key c (get (r.write s ++ fieldMember key c proj s)) =
      some (r.value s (proj s)) := by
  rw [List.map_append, List.nodup_append] at hkeys
  have hnew : get (r.write s) key = none := by
    rw [get_eq_none_iff]
    exact fun hmem => hkeys.2.2 key ((r.keys_write s).mem hmem) key List.mem_cons_self rfl
  have hfields : r.read (get (r.write s ++ fieldMember key c proj s)) = some (r.value s) := by
    rw [← r.read_write hkeys.1 s hs]
    refine r.stable fun name hname => ?_
    have hnone : get (fieldMember key c proj s) name = none := by
      rw [get_eq_none_iff]
      intro hmem
      have hkey : name = key := List.mem_singleton.mp (keys_fieldMember key c proj s hmem)
      exact hkeys.2.2 name hname key List.mem_cons_self hkey
    rw [get_append, hnone, Option.or_none]
    exact sameValue_refl _
  have hmember : c.read (get (r.write s ++ fieldMember key c proj s) key) = some (proj s) := by
    rw [get_append, hnew, Option.none_or, get_fieldMember]
    exact c.read_write _ hfield
  rw [readField, hfields, hmember]
  rfl

/-- A record with another field behind the others. -/
def field : RecordCodec N S α where
  keys := r.keys ++ [(key, c.hasDefault)]
  read := readField r key c
  stable {g g'} h := by
    have hmem : key ∈ (r.keys ++ [(key, c.hasDefault)]).map Prod.fst :=
      List.mem_map_of_mem (List.mem_append_right _ List.mem_cons_self)
    have hfields : r.read g = r.read g' := r.stable fun name hname => by
      refine h name ?_
      rw [List.map_append]
      exact List.mem_append_left _ hname
    rw [readField, readField, hfields, c.stable (h key hmem)]
  write s := r.write s ++ fieldMember key c proj s
  value s := r.value s (proj s)
  Valid s := r.Valid s ∧ c.Valid (proj s)
  keys_write s := by
    rw [List.map_append, List.map_append, fieldMember]
    refine (r.keys_write s).append ?_
    cases c.write (proj s) with
    | none => exact List.nil_sublist _
    | some v => exact List.Sublist.refl _
  read_write hkeys s hs := readField_write c proj hkeys s hs.1 hs.2
  distinct s := by
    refine List.forall_mem_append.mpr ⟨r.distinct s, fun e he => ?_⟩
    obtain ⟨v, hv, rfl⟩ := Option.map_eq_some_iff.mp (Option.mem_toList.mp he)
    exact c.distinct _ v hv

/-- The codec of a record whose fields have different names. -/
def toCodec (r : RecordCodec N S S) (hnames : r.names.Nodup) (hvalue : ∀ s, r.value s = s) :
    JsonCodec N S where
  write s := .object (r.write s)
  read := r.readValue
  Valid := r.Valid
  read_write s hs := by
    rw [r.readValue_object (hnames.sublist (r.keys_write s)), r.read_write hnames s hs, hvalue]
  stable := r.readValue_stable
  distinct s := ⟨hnames.sublist (r.keys_write s), distinctMembers_iff.mpr (r.distinct s)⟩
  write_ne_null _ h := nomatch h

end RecordCodec

/-! ### Enumerations -/

/-- The variant of a value of an enumeration: its name, and the record it carries. -/
structure Variant (N E : Type) : Type 1 where
  name : String
  Payload : Type
  codec : RecordCodec N Payload E
  payload : Payload

namespace JsonCodec

variable {N E : Type} (tag : String) (variantOf : E → Variant N E)
  (fields : String → Option (Fields N E))

/-- A value of an enumeration, from the record of the variant that its tag names. -/
def readTagged : JsonValue N → Option E
  | .object members =>
    if Once members tag then do
      let name ← (get members tag).bind readString
      let variant ← fields name
      variant.readValue (.object (members.filter (·.1 ≠ tag)))
    else none
  | .array (v :: items) => do
    let name ← readString v
    let variant ← fields name
    variant.readValue (.array items)
  | _ => none

theorem bind_readString_congr {o o' : Option (JsonValue N)} (h : SameValue o o') :
    o.bind readString = o'.bind readString := by
  cases h with
  | none => rfl
  | some h => exact string.stable h

theorem readTagged_object_congr {members members' : List (String × JsonValue N)}
    (honce : Once members tag ↔ Once members' tag)
    (hname : Once members tag →
      (get members tag).bind readString = (get members' tag).bind readString)
    (hrest : (JsonValue.object (members.filter (·.1 ≠ tag))).Reordered
      (.object (members'.filter (·.1 ≠ tag)))) :
    readTagged tag fields (.object members) = readTagged tag fields (.object members') := by
  rw [readTagged, readTagged]
  by_cases h : Once members tag
  · rw [if_pos h, if_pos (honce.mp h), hname h]
    simp only [fun variant : Fields N E => variant.readValue_stable hrest]
  · rw [if_neg h, if_neg (mt honce.mpr h)]

/-- An enumeration is read alike from values that are the same. -/
theorem readTagged_stable {v w : JsonValue N} (h : v.Reordered w) :
    readTagged tag fields v = readTagged tag fields w := by
  induction h with
  | refl => rfl
  | trans _ _ ihu ihv => exact ihu.trans ihv
  | object h =>
    exact readTagged_object_congr tag fields (once_of_perm h tag)
      (fun honce => congrArg (Option.bind · readString) (get_of_perm h honce))
      (.object (h.filter _))
  | @item before after v w h =>
    cases before with
    | nil =>
      have hname : readString v = readString w := string.stable h
      rw [List.nil_append, List.nil_append, readTagged, readTagged, hname]
    | cons u before =>
      have hrest := Reordered.item before after h
      rw [List.cons_append, List.cons_append, readTagged, readTagged]
      simp only [fun variant : Fields N E => variant.readValue_stable hrest]
  | @member before after key v w h =>
    have hmembers := forall₂_sameMember_replace before after key h
    refine readTagged_object_congr tag fields (once_iff_of_forall₂ hmembers tag)
      (fun _ => bind_readString_congr (sameValue_get hmembers tag)) ?_
    rw [List.filter_append, List.filter_append, List.filter_cons, List.filter_cons]
    split
    · exact .member _ _ key h
    · exact .refl _

/-- What a variant has to be for the values of an enumeration to be read back. -/
structure VariantLaw (e : E) : Prop where
  fields_eq : fields (variantOf e).name = some (variantOf e).codec.toFields
  value_eq : (variantOf e).codec.value (variantOf e).payload = e
  names_nodup : (tag :: (variantOf e).codec.names).Nodup

/-- How a value of an enumeration is written. -/
def writeTagged (e : E) : JsonValue N :=
  .object ((tag, .string (variantOf e).name) :: (variantOf e).codec.write (variantOf e).payload)

variable {tag variantOf fields} in
theorem VariantLaw.keys_nodup {e : E} (h : VariantLaw tag variantOf fields e) :
    (tag :: ((variantOf e).codec.write (variantOf e).payload).map Prod.fst).Nodup :=
  h.names_nodup.sublist (((variantOf e).codec.keys_write _).cons_cons tag)

variable {tag variantOf fields} in
theorem VariantLaw.readTagged_write {e : E} (h : VariantLaw tag variantOf fields e)
    (he : (variantOf e).codec.Valid (variantOf e).payload) :
    readTagged tag fields (writeTagged tag variantOf e) = some e := by
  have hkeys := h.keys_nodup
  have hrest : ((variantOf e).codec.write (variantOf e).payload).filter (·.1 ≠ tag) =
      (variantOf e).codec.write (variantOf e).payload := by
    refine List.filter_eq_self.mpr fun member hmember => decide_eq_true fun htag => ?_
    exact (List.nodup_cons.mp hkeys).1 (htag ▸ List.mem_map_of_mem hmember)
  have hname : get ((tag, JsonValue.string (variantOf e).name) ::
      (variantOf e).codec.write (variantOf e).payload) tag =
        some (.string (variantOf e).name) := (get_cons _ _ _).trans (if_pos rfl)
  have hvalue : (variantOf e).codec.readValue
      (.object ((variantOf e).codec.write (variantOf e).payload)) = some e := by
    rw [Fields.readValue_object _ (List.nodup_cons.mp hkeys).2,
      (variantOf e).codec.read_write (List.nodup_cons.mp h.names_nodup).2 _ he, h.value_eq]
  have honce : Once ((tag, JsonValue.string (variantOf e).name) ::
      (variantOf e).codec.write (variantOf e).payload) tag := by
    refine once_of_nodup ?_ tag
    exact hkeys
  rw [writeTagged, readTagged, if_pos honce, hname,
    List.filter_cons_of_neg (by simp), hrest]
  exact (congrArg (Option.bind · _) h.fields_eq).trans hvalue

/-- The codec of an enumeration. -/
def tagged (law : ∀ e, VariantLaw tag variantOf fields e) : JsonCodec N E where
  write := writeTagged tag variantOf
  read := readTagged tag fields
  Valid e := (variantOf e).codec.Valid (variantOf e).payload
  read_write e he := (law e).readTagged_write he
  stable := readTagged_stable tag fields
  distinct e := ⟨(law e).keys_nodup, distinctMembers_iff.mpr
    (List.forall_mem_cons.mpr ⟨trivial, (variantOf e).codec.distinct _⟩)⟩
  write_ne_null _ h := nomatch h

end JsonCodec

/-! ### Which values are read back -/

section

variable {N α β S : Type}

@[simp] theorem JsonCodec.valid_string (s : String) : (string : JsonCodec N String).Valid s :=
  trivial

@[simp] theorem JsonCodec.valid_bool (b : Bool) : (bool : JsonCodec N Bool).Valid b := trivial

@[simp] theorem JsonCodec.valid_list_iff {c : JsonCodec N α} {l : List α} :
    (list c).Valid l ↔ ∀ a ∈ l, c.Valid a := Iff.rfl

@[simp] theorem JsonCodec.valid_tagged_iff {tag : String} {variantOf : α → Variant N α}
    {fields : String → Option (Fields N α)} {law : ∀ a, VariantLaw tag variantOf fields a} {a : α} :
    (tagged tag variantOf fields law).Valid a ↔ (variantOf a).codec.Valid (variantOf a).payload :=
  Iff.rfl

@[simp] theorem FieldCodec.valid_required_iff {c : JsonCodec N β} {b : β} :
    (required c).Valid b ↔ c.Valid b := Iff.rfl

@[simp] theorem FieldCodec.valid_defaulted_iff {c : JsonCodec N β} {default b : β} :
    (defaulted c default).Valid b ↔ c.Valid b := Iff.rfl

@[simp] theorem FieldCodec.valid_optional_iff {c : JsonCodec N β} {o : Option β} :
    (optional c).Valid o ↔ ∀ b ∈ o, c.Valid b := Iff.rfl

@[simp] theorem FieldCodec.valid_nullable_iff {c : JsonCodec N β} {o : Option β} :
    (nullable c).Valid o ↔ ∀ b ∈ o, c.Valid b := Iff.rfl

@[simp] theorem RecordCodec.valid_start (a : α) (s : S) : (start a : RecordCodec N S α).Valid s :=
  trivial

@[simp] theorem RecordCodec.valid_field_iff {r : RecordCodec N S (β → α)} {key : String}
    {c : FieldCodec N β} {proj : S → β} {s : S} :
    (r.field key c proj).Valid s ↔ r.Valid s ∧ c.Valid (proj s) := Iff.rfl

end

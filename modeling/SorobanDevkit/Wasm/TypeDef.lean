import Std.Data.String.ToNat
import SorobanDevkit.Wasm.TypeRef

/-!
# Type definitions behind references

`map_type_def` turns a nested type definition into a reference, and `type_ref_eq` compares two
references by name and kind, following the members of compound types. Together they lose nothing:
two type definitions whose references are compared equal are the same. A reference of kind
`primitive` is determined by its name, one of kind `udt` by the name of the user-defined type, and
of a compound type the first character of the name tells the constructor and the members hold the
arguments.
-/

namespace SorobanDevkit.Wasm

/-! ### Arguments of a type definition -/

/-- The immediate arguments of a type definition. -/
def ScSpecTypeDef.args : ScSpecTypeDef → List ScSpecTypeDef
  | .option valueType => [valueType]
  | .result okType errorType => [okType, errorType]
  | .vec elementType => [elementType]
  | .map keyType valueType => [keyType, valueType]
  | .tuple valueTypes => valueTypes
  | _ => []

/-- Induction on a type definition through its arguments. -/
theorem ScSpecTypeDef.induction {motive : ScSpecTypeDef → Prop}
    (step : ∀ t : ScSpecTypeDef, (∀ u ∈ t.args, motive u) → motive t) (t : ScSpecTypeDef) :
    motive t := by
  refine @ScSpecTypeDef.rec motive (fun ts => ∀ u ∈ ts, motive u) ?_ ?_ ?_ ?_ ?_ ?_ ?_ ?_ ?_ ?_ ?_
    ?_ ?_ ?_ ?_ ?_ ?_ ?_ ?_ ?_ ?_ ?_ ?_ ?_ ?_ ?_ ?_ ?_ t
  case refine_20 => exact fun a ha => step _ (List.forall_mem_singleton.mpr ha)
  case refine_21 => exact fun a b ha hb => step _ (by simp [ScSpecTypeDef.args, ha, hb])
  case refine_22 => exact fun a ha => step _ (List.forall_mem_singleton.mpr ha)
  case refine_23 => exact fun a b ha hb => step _ (by simp [ScSpecTypeDef.args, ha, hb])
  case refine_24 => exact fun ts hts => step _ hts
  case refine_27 => exact List.forall_mem_nil _
  case refine_28 => exact fun u us hu hus => List.forall_mem_cons.mpr ⟨hu, hus⟩
  all_goals
    intros
    exact step _ (List.forall_mem_nil _)

mutual

/-- The user-defined types in a type definition have UTF-8 names. -/
def ScSpecTypeDef.NamesValid : ScSpecTypeDef → Prop
  | .option valueType => valueType.NamesValid
  | .result okType errorType => okType.NamesValid ∧ errorType.NamesValid
  | .vec elementType => elementType.NamesValid
  | .map keyType valueType => keyType.NamesValid ∧ valueType.NamesValid
  | .tuple valueTypes => ScSpecTypeDef.NamesValidList valueTypes
  | .udt name => ValidUtf8 name
  | _ => True

/-- `ScSpecTypeDef.NamesValid` of every type of a list. -/
def ScSpecTypeDef.NamesValidList : List ScSpecTypeDef → Prop
  | [] => True
  | t :: ts => t.NamesValid ∧ ScSpecTypeDef.NamesValidList ts

end

theorem ScSpecTypeDef.namesValidList_iff (ts : List ScSpecTypeDef) :
    ScSpecTypeDef.NamesValidList ts ↔ ∀ t ∈ ts, t.NamesValid := by
  induction ts with
  | nil => simp [ScSpecTypeDef.NamesValidList]
  | cons t ts ih => rw [ScSpecTypeDef.NamesValidList, ih, List.forall_mem_cons]

theorem ScSpecTypeDef.NamesValid.args {t : ScSpecTypeDef} (h : t.NamesValid) :
    ∀ u ∈ t.args, u.NamesValid := by
  cases t with
  | option a => exact List.forall_mem_singleton.mpr h
  | result a b => exact List.forall_mem_cons.mpr ⟨h.1, List.forall_mem_singleton.mpr h.2⟩
  | vec a => exact List.forall_mem_singleton.mpr h
  | map a b => exact List.forall_mem_cons.mpr ⟨h.1, List.forall_mem_singleton.mpr h.2⟩
  | tuple ts => exact (ScSpecTypeDef.namesValidList_iff ts).mp h
  | _ => simp [ScSpecTypeDef.args]

/-! ### Names and kinds of references -/

/-- The primitive type a name stands for. -/
def ofPrimitiveName : String → Option ScSpecTypeDef
  | "val" => some .val
  | "bool" => some .bool
  | "void" => some .void
  | "error" => some .error
  | "u32" => some .u32
  | "i32" => some .i32
  | "u64" => some .u64
  | "i64" => some .i64
  | "timepoint" => some .timepoint
  | "duration" => some .duration
  | "u128" => some .u128
  | "i128" => some .i128
  | "u256" => some .u256
  | "i256" => some .i256
  | "bytes" => some .bytes
  | "string" => some .string
  | "symbol" => some .symbol
  | "address" => some .address
  | "muxed_address" => some .muxedAddress
  | _ => none

/-- The first character in the name of a compound type. -/
def ScSpecTypeDef.initial : ScSpecTypeDef → Option Char
  | .option _ => some 'o'
  | .result _ _ => some 'r'
  | .vec _ => some 'v'
  | .map _ _ => some 'm'
  | .tuple _ => some 't'
  | .bytesN _ => some 'b'
  | _ => none

section Names

variable (lossy : StringM → String)

/-- A reference of kind `primitive` is determined by its name. -/
theorem ofPrimitiveName_mapTypeDef {t : ScSpecTypeDef}
    (h : (mapTypeDef lossy t).kind = "primitive") :
    ofPrimitiveName (mapTypeDef lossy t).name = some t := by
  cases t <;> first | rfl | simp [mapTypeDef, compound] at h

/-- The name of a compound type starts with the character of its constructor. -/
theorem head?_mapTypeDef_name {t : ScSpecTypeDef} (h : (mapTypeDef lossy t).kind = "compound") :
    (mapTypeDef lossy t).name.toList.head? = t.initial := by
  cases t <;> simp [mapTypeDef, compound, primitive, ScSpecTypeDef.initial] at h ⊢

theorem eq_udt_of_kind {t : ScSpecTypeDef} (h : (mapTypeDef lossy t).kind = "udt") :
    ∃ name, t = .udt name := by
  cases t <;> first | exact ⟨_, rfl⟩ | simp [mapTypeDef, compound, primitive] at h

theorem kind_mapTypeDef (t : ScSpecTypeDef) : (mapTypeDef lossy t).kind = "primitive" ∨
    (mapTypeDef lossy t).kind = "udt" ∨ (mapTypeDef lossy t).kind = "compound" := by
  cases t <;> simp [mapTypeDef, compound, primitive]

end Names

/-! ### Members of compound references -/

/-- Members are compared argument by argument. -/
theorem forall₂_of_labelledMembers {args args' : List ContractType} {labels labels' : List String}
    (h : args.length = labels.length) (h' : args'.length = labels'.length)
    (hmembers : List.Forall₂ memberRefEq (labelledMembers args labels)
      (labelledMembers args' labels')) :
    List.Forall₂ (fun x y => typeRefEq x y = true) args args' := by
  have hargs : (args.zip labels).map Prod.fst = args := List.map_fst_zip h.le
  have hargs' : (args'.zip labels').map Prod.fst = args' := List.map_fst_zip h'.le
  rw [← hargs, ← hargs', List.forall₂_map_left_iff, List.forall₂_map_right_iff]
  rw [labelledMembers, labelledMembers, List.forall₂_map_left_iff,
    List.forall₂_map_right_iff] at hmembers
  refine hmembers.imp fun x y hxy => ?_
  simpa using (memberTypesEq_iff [x.1] [y.1]).mp hxy.2

/-- The labels under which the arguments of a type definition become members. -/
def ScSpecTypeDef.labels : ScSpecTypeDef → List String
  | .option _ => ["value_type"]
  | .result _ _ => ["ok_type", "error_type"]
  | .vec _ => ["element_type"]
  | .map _ _ => ["key_type", "value_type"]
  | .tuple valueTypes => (List.range valueTypes.length).map fun i => toString i
  | _ => []

theorem ScSpecTypeDef.length_labels (t : ScSpecTypeDef) : t.args.length = t.labels.length := by
  cases t <;> simp [ScSpecTypeDef.args, ScSpecTypeDef.labels]

theorem mapTypeDef_members (lossy : StringM → String) (t : ScSpecTypeDef) :
    (mapTypeDef lossy t).members = labelledMembers (t.args.map (mapTypeDef lossy)) t.labels := by
  cases t <;> simp [mapTypeDef, primitive, compound, ScSpecTypeDef.args, ScSpecTypeDef.labels,
    mapTypeDefs_eq_map, labelledMembers]

/-! ### Injectivity -/

/-- Related lists are equal if related elements are. -/
theorem eq_of_forall₂_of_mem {α : Type} {r : α → α → Prop} {l l' : List α}
    (h : List.Forall₂ r l l') (heq : ∀ a ∈ l, ∀ b ∈ l', r a b → a = b) : l = l' := by
  induction h with
  | nil => rfl
  | @cons a b l l' hab _ ih =>
    rw [heq a List.mem_cons_self b List.mem_cons_self hab,
      ih fun x hx y hy => heq x (List.mem_cons_of_mem a hx) y (List.mem_cons_of_mem b hy)]

section Injectivity

variable {lossy : StringM → String}

/-- Primitive types with references compared equal are the same. -/
theorem eq_of_typeRefEq_of_primitive {s t : ScSpecTypeDef}
    (hs : (mapTypeDef lossy s).kind = "primitive")
    (h : typeRefEq (mapTypeDef lossy s) (mapTypeDef lossy t) = true) : s = t := by
  obtain ⟨hname, hkind, -⟩ := (typeRefEq_iff _ _).mp h
  have hdecode := ofPrimitiveName_mapTypeDef lossy hs
  rw [hname, ofPrimitiveName_mapTypeDef lossy (hkind ▸ hs)] at hdecode
  exact (Option.some.inj hdecode).symm

/-- The name and the arguments determine a compound type. -/
theorem eq_of_name_of_args {s t : ScSpecTypeDef} (hs : (mapTypeDef lossy s).kind = "compound")
    (ht : (mapTypeDef lossy t).kind = "compound")
    (hname : (mapTypeDef lossy s).name = (mapTypeDef lossy t).name) (hargs : s.args = t.args) :
    s = t := by
  have hinitial : s.initial = t.initial := by
    rw [← head?_mapTypeDef_name lossy hs, ← head?_mapTypeDef_name lossy ht, hname]
  cases s <;> try simp [mapTypeDef, primitive] at hs
  all_goals
    cases t <;> try simp [ScSpecTypeDef.initial] at hinitial
    simp_all [ScSpecTypeDef.args, mapTypeDef, UInt32.toNat_inj]

variable (hlossy : LossyOnUtf8 lossy)

include hlossy

/-- **References compared equal come from the same type definition**, at any nesting depth. -/
theorem eq_of_typeRefEq {s t : ScSpecTypeDef} (hs : s.NamesValid) (ht : t.NamesValid)
    (h : typeRefEq (mapTypeDef lossy s) (mapTypeDef lossy t) = true) : s = t := by
  induction s using ScSpecTypeDef.induction generalizing t with
  | step s ih =>
    obtain ⟨hname, hkind, hmembers⟩ := (typeRefEq_iff _ _).mp h
    rcases kind_mapTypeDef lossy s with hk | hk | hk
    · exact eq_of_typeRefEq_of_primitive hk h
    · obtain ⟨n, rfl⟩ := eq_udt_of_kind lossy hk
      obtain ⟨m, rfl⟩ := eq_udt_of_kind lossy (hkind ▸ hk)
      rw [hlossy.inj hs ht hname]
    · have hargs := hmembers hk
      rw [mapTypeDef_members, mapTypeDef_members] at hargs
      replace hargs := forall₂_of_labelledMembers (by simpa using s.length_labels)
        (by simpa using t.length_labels) hargs
      rw [List.forall₂_map_left_iff, List.forall₂_map_right_iff] at hargs
      have heq : s.args = t.args := eq_of_forall₂_of_mem hargs fun a ha b hb hab =>
        ih a ha (hs.args a ha) (ht.args b hb) hab
      exact eq_of_name_of_args hk (hkind ▸ hk) hname heq

/-- Member types compared equal come from the same type definitions. -/
theorem eq_of_memberTypesEq {ss ts : List ScSpecTypeDef} (hs : ∀ s ∈ ss, s.NamesValid)
    (ht : ∀ t ∈ ts, t.NamesValid)
    (h : memberTypesEq (ss.map (mapTypeDef lossy)) (ts.map (mapTypeDef lossy)) = true) :
    ss = ts := by
  rw [memberTypesEq_iff, List.forall₂_map_left_iff, List.forall₂_map_right_iff] at h
  exact eq_of_forall₂_of_mem h fun s hsm t htm hst => eq_of_typeRefEq hlossy (hs s hsm)
    (ht t htm) hst

end Injectivity

end SorobanDevkit.Wasm

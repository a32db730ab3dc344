import JavaOutline.Proofs.Navigation
import JavaOutline.Proofs.NoiseDeletion
import JavaOutline.Proofs.OutlineRecords
import JavaOutline.Proofs.OutlineSchema
import JavaOutline.Proofs.PrunedContent
import Mathlib.Data.List.Forall2

/-!
# JavaOutline.Proofs.RequiredKeys

Every key of an outline document is required.

A run of removals leaves an array with as many items, and an object with some of its entries, each
with what removals have left of its value (`ShrinksTo.array`, `ShrinksTo.object`). A document
`NeedsAll` of its entries for something if this does not hold of it any more once some are gone.
A record that writes just the keys that reading it demands needs all of its entries to be read, if
the values do (`NeedsAll.record`); so the document of an outline is not read as one once entries
are gone. Entries of the list of methods carry no tag, but neither form has a key that makes up for
those of the other (`MethodEntry.needsAll_toJson`).

Strict documents are not read either: an outline without nested types is somewhere in every
outline, and pruning takes the empty list of them away (`every_key_required`).
-/

namespace JavaOutline

namespace Json

/-! ## What removals leave -/

/-- Any number of removals, one after another. -/
abbrev ShrinksTo : Json → Json → Prop := Relation.ReflTransGen Removes

/-- The first entry is what removals have left of the second one. -/
def IsLeftOf (f e : String × Json) : Prop := f.1 = e.1 ∧ ShrinksTo e.2 f.2

instance : Std.Refl IsLeftOf := ⟨fun _ => ⟨rfl, .refl⟩⟩

instance : IsTrans (String × Json) IsLeftOf :=
  ⟨fun _ _ _ h h' => ⟨h.1.trans h'.1, h'.2.trans h.2⟩⟩

/-- There is nothing to remove from a value without parts. -/
theorem ShrinksTo.eq_of_isScalar {j k : Json} (hj : j.isScalar = true) (h : ShrinksTo j k) :
    k = j := by
  cases h.cases_head with
  | inl heq => exact heq.symm
  | inr hstep =>
      obtain ⟨l, hremoves, -⟩ := hstep
      cases hremoves <;> contradiction

/-- One item may shrink further. -/
theorem forall₂_replace {R : α → β → Prop} {xs : List α} {before after : List β} {b b' : β}
    (h : List.Forall₂ R xs (before ++ b :: after)) (hb : ∀ a, R a b → R a b') :
    List.Forall₂ R xs (before ++ b' :: after) := by
  induction before generalizing xs with
  | nil =>
      cases h with
      | cons hhead htail => exact .cons (hb _ hhead) htail
  | cons c before ih =>
      cases h with
      | cons hhead htail => exact .cons hhead (ih htail)

/-- **An array keeps its items**, what is left of them. -/
theorem ShrinksTo.array {xs : List Json} {k : Json} (h : ShrinksTo (.array xs) k) :
    ∃ ys, k = .array ys ∧ List.Forall₂ ShrinksTo xs ys := by
  induction h with
  | refl => exact ⟨xs, rfl, List.forall₂_same.mpr fun _ _ => .refl⟩
  | tail _ hstep ih =>
      obtain ⟨ys, rfl, hys⟩ := ih
      cases hstep with
      | item before after hremoves =>
          exact ⟨_, rfl, forall₂_replace hys fun _ hj => hj.tail hremoves⟩

/-- One step leaves some of the entries of an object, with what it leaves of their values. -/
theorem Removes.object {es : List (String × Json)} {k : Json} (h : Removes (.object es) k) :
    ∃ fs, k = .object fs ∧ List.SublistForall₂ IsLeftOf fs es := by
  have hsame : ∀ gs, List.Forall₂ IsLeftOf gs gs := List.forall₂_refl
  cases h with
  | @entry key j before after =>
      have hsublist : (before ++ after).Sublist (before ++ (key, j) :: after) :=
        (List.sublist_cons_self (key, j) after).append_left before
      exact ⟨_, rfl, hsublist.sublistForall₂⟩
  | value before after hremoves =>
      refine ⟨_, rfl, List.sublistForall₂_iff.mpr ⟨_, ?_, List.Sublist.refl _⟩⟩
      exact List.rel_append (hsame before) (.cons ⟨rfl, .single hremoves⟩ (hsame after))

/-- **An object keeps some of its entries**, with what is left of their values. -/
theorem ShrinksTo.object {es : List (String × Json)} {k : Json} (h : ShrinksTo (.object es) k) :
    ∃ fs, k = .object fs ∧ List.SublistForall₂ IsLeftOf fs es := by
  induction h with
  | refl => exact ⟨es, rfl, refl es⟩
  | tail _ hstep ih =>
      obtain ⟨fs, rfl, hfs⟩ := ih
      obtain ⟨gs, rfl, hgs⟩ := hstep.object
      exact ⟨gs, rfl, IsTrans.trans _ _ _ hgs hfs⟩

/-! ## Documents that need all of their entries -/

/-- Once entries are gone, the document is not valid any more. -/
def NeedsAll (valid : Json → Prop) (j : Json) : Prop := ∀ k, ShrinksTo j k → valid k → k = j

variable {valid other : Json → Prop} {j : Json}

theorem NeedsAll.imp (h : NeedsAll valid j) (hvalid : ∀ k, ShrinksTo j k → other k → valid k) :
    NeedsAll other j :=
  fun k hk hother => h k hk (hvalid k hk hother)

/-- A document that needs all of its entries for one thing, and none of whose remains is valid for
another, needs all for either. -/
theorem NeedsAll.or (h : NeedsAll valid j) (hother : ∀ k, ShrinksTo j k → ¬ other k) :
    NeedsAll (fun k => valid k ∨ other k) j := by
  rintro k hk (hvalid | hk')
  · exact h k hk hvalid
  · exact absurd hk' (hother k hk)

@[simp] theorem needsAll_bool (b : Bool) : NeedsAll valid (.bool b) :=
  fun _ hk _ => hk.eq_of_isScalar rfl

@[simp] theorem needsAll_string (s : String) : NeedsAll valid (.string s) :=
  fun _ hk _ => hk.eq_of_isScalar rfl

/-- A list is what it was if its items are. -/
theorem eq_of_forall₂ {R : α → α → Prop} {xs ys : List α} (h : List.Forall₂ R xs ys)
    (hR : ∀ x ∈ xs, ∀ y ∈ ys, R x y → y = x) : ys = xs := by
  induction h with
  | nil => rfl
  | @cons x y xs ys hxy _ ih =>
      have hhead : y = x := hR x List.mem_cons_self y List.mem_cons_self hxy
      have htail : ys = xs := ih fun a ha b hb =>
        hR a (List.mem_cons_of_mem x ha) b (List.mem_cons_of_mem y hb)
      rw [hhead, htail]

/-- A list needs all entries in its items if the items do. -/
theorem NeedsAll.array {items : List Json} (h : ∀ j ∈ items, NeedsAll valid j) :
    NeedsAll (fun v => ∃ xs, v = .array xs ∧ ∀ x ∈ xs, valid x) (.array items) := by
  rintro k hk ⟨xs, rfl, hxs⟩
  obtain ⟨ys, heq, hys⟩ := hk.array
  obtain rfl := Json.array.inj heq
  rw [eq_of_forall₂ hys fun j hj x hx hjx => h j hj x hjx (hxs x hx)]

/-- There are no entries in a list of texts. -/
@[simp] theorem needsAll_ofTexts (texts : List String) : NeedsAll valid (ofTexts texts) := by
  intro k hk _
  obtain ⟨ys, rfl, hys⟩ := hk.array
  refine congrArg Json.array (eq_of_forall₂ hys ?_)
  rw [List.forall_mem_map]
  exact fun _ _ _ _ htext => htext.eq_of_isScalar rfl

/-! ## Records that need all of their entries -/

/-- Keys that a record must have, with what is demanded of their values. -/
abbrev Demands := List (String × (Json → Prop))

/-- A document has a value under each of the keys, and it is as demanded. -/
def Meets (v : Json) (demands : Demands) : Prop := ∀ d ∈ demands, ∃ x, v.get? d.1 = some x ∧ d.2 x

/-- Nothing is demanded of the value. -/
def Anything (_ : Json) : Prop := True

/-- The value is a list that is read item by item. -/
def IsListOf (read : Json → Option α) (v : Json) : Prop :=
  ∃ xs, v = .array xs ∧ ∀ x ∈ xs, (read x).isSome = true

variable {demands : Demands} {root : Json} {fields : RecordSchema} {es fs : List (String × Json)}

/-- What is left of an object has some of its keys. -/
theorem map_fst_sublist (h : List.SublistForall₂ IsLeftOf fs es) :
    (fs.map Prod.fst).Sublist (es.map Prod.fst) := by
  obtain ⟨kept, hfs, hkept⟩ := List.sublistForall₂_iff.mp h
  have hkeys : fs.map Prod.fst = kept.map Prod.fst := by
    rw [← List.forall₂_eq_eq_eq, List.forall₂_map_left_iff, List.forall₂_map_right_iff]
    exact hfs.imp fun _ _ hleft => hleft.1
  rw [hkeys]
  exact hkept.map Prod.fst

theorem mem_keys_of_get? {v x : Json} {key : String} (h : v.get? key = some x) : key ∈ v.keys := by
  cases v with
  | object entries =>
      obtain ⟨front, back, rfl, -⟩ := List.lookup_eq_some_iff.mp h
      simp [keys]
  | _ => simp [get?] at h

/-- An entry with another key is not looked up. -/
theorem get?_cons_of_ne {f : String × Json} {key : String} (hne : key ≠ f.1) :
    (Json.object (f :: fs)).get? key = (Json.object fs).get? key := by
  rw [get?, List.lookup_cons, beq_eq_false_iff_ne.mpr hne, get?]

/-- **Of a record with all keys that are demanded of it nothing is gone**, if the values need all
of their entries. -/
theorem eq_of_meets (hsub : List.SublistForall₂ IsLeftOf fs es) (hnodup : (es.map Prod.fst).Nodup)
    (hneeds : List.Forall₂ (fun (d : String × (Json → Prop)) (e : String × Json) =>
      d.1 = e.1 ∧ NeedsAll d.2 e.2) demands es)
    (hmeets : Meets (.object fs) demands) : fs = es := by
  induction hsub generalizing demands with
  | nil =>
      cases hneeds with
      | nil => rfl
      | cons _ _ =>
          obtain ⟨_, hx, -⟩ := hmeets _ List.mem_cons_self
          exact absurd (mem_keys_of_get? hx) nofun
  | @cons f e fs es hleft _ ih =>
      cases hneeds with
      | @cons d _ demands _ hneed hneeds =>
          obtain ⟨_, y⟩ := f
          obtain ⟨key, x⟩ := e
          obtain ⟨rfl, hshrinks⟩ := hleft
          obtain ⟨rfl, hneed⟩ := hneed
          rw [List.map_cons, List.nodup_cons] at hnodup
          rw [Meets, List.forall_mem_cons] at hmeets
          obtain ⟨⟨y', hy', hvalid⟩, hmeets⟩ := hmeets
          obtain rfl : y = y' := by simpa [get?] using hy'
          have hhead : y = x := hneed y hshrinks hvalid
          have hdemanded : demands.map Prod.fst = es.map Prod.fst := by
            rw [← List.forall₂_eq_eq_eq, List.forall₂_map_left_iff, List.forall₂_map_right_iff]
            exact hneeds.imp fun _ _ h => h.1
          have htail : fs = es := ih hnodup.2 hneeds fun d' hd' => by
            have hmem : d'.1 ∈ es.map Prod.fst := hdemanded ▸ List.mem_map_of_mem hd'
            have hne : d'.1 ≠ d.1 := fun heq => hnodup.1 (heq ▸ hmem)
            rw [← get?_cons_of_ne (f := (d.1, y)) hne]
            exact hmeets d' hd'
          rw [hhead, htail]
  | @cons_right e fs es hsub _ =>
      -- a key that is gone cannot come again further back
      cases hneeds with
      | @cons d _ demands _ hneed _ =>
          obtain ⟨_, hx, -⟩ := hmeets d List.mem_cons_self
          have hmem : e.1 ∈ es.map Prod.fst :=
            hneed.1 ▸ (map_fst_sublist hsub).subset (mem_keys_of_get? hx)
          rw [List.map_cons, List.nodup_cons] at hnodup
          exact absurd hmem hnodup.1

/-- A record needs all of its entries for what demands all of its keys, if the values need all of
theirs. -/
theorem NeedsAll.record (demands : Demands) (hnodup : (Json.object es).keys.Nodup)
    (hneeds : List.Forall₂ (fun (d : String × (Json → Prop)) (e : String × Json) =>
      d.1 = e.1 ∧ NeedsAll d.2 e.2) demands es)
    (hvalid : ∀ fs, valid (.object fs) → Meets (.object fs) demands) :
    NeedsAll valid (.object es) := by
  intro k hk hk'
  obtain ⟨fs, rfl, hsub⟩ := hk.object
  rw [eq_of_meets hsub hnodup hneeds (hvalid fs hk')]

/-- What a schema of records demands. -/
def demandsOf (fields : RecordSchema) : Demands := fields.map fun field => (field.1, Anything)

theorem meets_demandsOf {v : Json} (h : ObeysRecord root fields v) : Meets v (demandsOf fields) := by
  refine List.forall_mem_map.mpr fun field hfield => ?_
  obtain ⟨x, hx, -⟩ := h.2 field hfield
  exact ⟨x, hx, trivial⟩

theorem isListOf_of_mapM {read : Json → Option α} {v : Json} {xs : List Json} {as : List α}
    (hitems : v.items? = some xs) (hread : xs.mapM read = some as) : IsListOf read v := by
  cases v with
  | array items =>
      obtain rfl := Option.some.inj hitems
      exact ⟨items, rfl, (isSome_mapM items).mp (by simp [hread])⟩
  | _ => nomatch hitems

/-- A list needs all entries in its items to be read if the items do. -/
theorem needsAll_isListOf {read : Json → Option α} {items : List Json}
    (h : ∀ j ∈ items, NeedsAll (fun k => (read k).isSome = true) j) :
    NeedsAll (IsListOf read) (.array items) :=
  NeedsAll.array h

/-- Removals add no keys. -/
theorem ShrinksTo.keys_sublist {j k : Json} (h : ShrinksTo j k) : k.keys.Sublist j.keys := by
  cases j with
  | object es =>
      obtain ⟨fs, rfl, hsub⟩ := h.object
      exact map_fst_sublist hsub
  | array items =>
      obtain ⟨xs, rfl, -⟩ := h.array
      exact .slnil
  | _ => rw [h.eq_of_isScalar rfl]

/-- What lacks a key of a record does not become one by removals. -/
theorem not_obeysRecord {j k : Json} {key : String} (hfields : key ∈ fields.keys)
    (hkey : key ∉ j.keys) (hk : ShrinksTo j k) : ¬ ObeysRecord root fields k := by
  intro hobeys
  obtain ⟨field, hfield, rfl⟩ := List.mem_map.mp hfields
  obtain ⟨x, hx, -⟩ := hobeys.2 field hfield
  exact hkey (hk.keys_sublist.subset (mem_keys_of_get? hx))

end Json

open Json

/-! ## Outlines -/

theorem FieldOutline.needsAll_toJson (f : FieldOutline) :
    NeedsAll (fun k => (FieldOutline.ofJson? k).isSome = true) f.toJson := by
  refine .record (demandsOf FieldOutline.schema) FieldOutline.nodup_keys ?_
    fun fs hread => ?_
  · simp [demandsOf, FieldOutline.schema, FieldFlags.entries, flagFields]
  · rw [← FieldOutline.validates_iff, validates_definition (d := .record FieldOutline.schema) rfl,
      validates_record] at hread
    exact meets_demandsOf hread

theorem ConstructorOutline.needsAll_toJson (c : ConstructorOutline) :
    NeedsAll (fun k => (ConstructorOutline.ofJson? k).isSome = true) c.toJson := by
  refine .record (demandsOf ConstructorOutline.schema) ConstructorOutline.nodup_keys ?_
    fun fs hread => ?_
  · simp [demandsOf, ConstructorOutline.schema, ConstructorFlags.entries, flagFields]
  · rw [← ConstructorOutline.validates_iff,
      validates_definition (d := .record ConstructorOutline.schema) rfl, validates_record] at hread
    exact meets_demandsOf hread

theorem MethodOutline.needsAll_toJson (m : MethodOutline) :
    NeedsAll (ObeysRecord outlineSchema MethodOutline.schema) m.toJson := by
  refine .record (demandsOf MethodOutline.schema) MethodOutline.nodup_keys ?_ fun _ => meets_demandsOf
  simp [demandsOf, MethodOutline.schema, MethodFlags.entries, flagFields]

theorem ElementOutline.needsAll_toJson (e : ElementOutline) :
    NeedsAll (ObeysRecord outlineSchema ElementOutline.schema) e.toJson := by
  refine .record (demandsOf ElementOutline.schema) ElementOutline.nodup_keys ?_ fun _ => meets_demandsOf
  simp [demandsOf, ElementOutline.schema]

/-- An object that is read as an entry of the list of methods obeys one of the two schemas for
it. -/
theorem MethodEntry.obeys_of_read {entries : List (String × Json)}
    (h : (MethodEntry.ofJson? (.object entries)).isSome = true) :
    ObeysRecord outlineSchema MethodOutline.schema (.object entries)
      ∨ ObeysRecord outlineSchema ElementOutline.schema (.object entries) := by
  rw [MethodEntry.ofJson?, Option.isSome_or, Option.isSome_map, Option.isSome_map,
    Bool.or_eq_true] at h
  rw [ElementOutline.obeysRecord_iff]
  refine h.imp_left fun hmethod => ?_
  rwa [← MethodOutline.validates_iff, validates_definition (d := .record MethodOutline.schema) rfl,
    validates_record] at hmethod

/-- Neither form of an entry of the list of methods becomes one of the other form by removals. -/
theorem MethodEntry.needsAll_toJson (x : MethodEntry) :
    NeedsAll (fun k => (MethodEntry.ofJson? k).isSome = true) x.toJson := by
  have hobeys : ∀ es k, ShrinksTo (.object es) k → (MethodEntry.ofJson? k).isSome = true →
      ObeysRecord outlineSchema MethodOutline.schema k
        ∨ ObeysRecord outlineSchema ElementOutline.schema k := by
    intro es k hk hread
    obtain ⟨fs, rfl, -⟩ := hk.object
    exact obeys_of_read hread
  cases x with
  | method m =>
      have hdefault : "hasDefault" ∉ m.toJson.keys := by
        rw [m.keys_toJson]
        decide
      refine (m.needsAll_toJson.or fun k hk => ?_).imp (hobeys _)
      exact not_obeysRecord (by decide) hdefault hk
  | element e =>
      have hparams : "params" ∉ e.toJson.keys := by
        rw [e.keys_toJson]
        decide
      refine (e.needsAll_toJson.or fun k hk => ?_).imp fun k hk hread => (hobeys _ k hk hread).symm
      exact not_obeysRecord (by decide) hparams hk

namespace Outline

/-- What reading an outline demands of the keys of its document. -/
def demands : Demands :=
  [("name", Anything), ("kind", Anything)]
    ++ demandsOf (flagFields ["public", "protected", "private", "abstract", "final", "static"])
    ++ [("extends", Anything), ("implements", Anything), ("annotations", Anything),
      ("fields", IsListOf FieldOutline.ofJson?),
      ("constructors", IsListOf ConstructorOutline.ofJson?),
      ("methods", IsListOf MethodEntry.ofJson?), ("inners", IsListOf ofJson?)]

theorem meets_demands_of_read {v : Json} (h : (ofJson? v).isSome = true) : Meets v demands := by
  obtain ⟨o, ho⟩ := Option.isSome_iff_exists.mp h
  simp only [ofJson?_eq, textAt?, textsAt?, listAt?, Option.bind_eq_bind,
    Option.bind_eq_some_iff] at ho
  obtain ⟨_, ⟨_, hinners, hitems⟩, _, ⟨_, hname, -⟩, _, hkind, _, -, _, hflags, _,
    ⟨_, hextends, -⟩, _, ⟨_, himplements, -⟩, _, ⟨_, hannotations, -⟩, _,
    ⟨_, hfields, _, hfieldItems, hfieldsRead⟩, _, ⟨_, hconstructors, _, hconstructorItems,
      hconstructorsRead⟩, _, ⟨_, hmethods, _, hmethodItems, hmethodsRead⟩, _, hinnersRead, -⟩ := ho
  have hflags : ObeysRecord outlineSchema
      (flagFields ["public", "protected", "private", "abstract", "final", "static"]) v :=
    (obeysRecord_of_ne_nil (by simp [flagFields])).mpr
      (TypeFlags.isSome_ofJson?.mp (by simp [hflags]))
  rw [demands, Meets, List.forall_mem_append, List.forall_mem_append]
  refine ⟨⟨?_, meets_demandsOf hflags⟩, ?_⟩
  · simp [hname, hkind, Anything]
  · simp [hextends, himplements, hannotations, hfields, hconstructors, hmethods, hinners, Anything,
      isListOf_of_mapM hitems hinnersRead, isListOf_of_mapM hfieldItems hfieldsRead,
      isListOf_of_mapM hconstructorItems hconstructorsRead,
      isListOf_of_mapM hmethodItems hmethodsRead]

/-- An outline needs all entries of its document if its nested types do. -/
theorem needsAll_of_inners {o : Outline}
    (h : ∀ j ∈ toJsonAll o.inners, NeedsAll (fun k => (ofJson? k).isSome = true) j) :
    NeedsAll (fun k => (ofJson? k).isSome = true) o.toJson := by
  have hkeys := o.keys_toJson
  obtain ⟨name, kind, flags, superclasses, interfaces, annotations, fields, constructors,
    methods, inners⟩ := o
  rw [toJson] at hkeys ⊢
  refine .record demands (hkeys ▸ nodup_keys) ?_ fun _ => meets_demands_of_read
  have hfields := needsAll_isListOf (List.forall_mem_map.mpr
    fun f (_ : f ∈ fields) => f.needsAll_toJson)
  have hconstructors := needsAll_isListOf (List.forall_mem_map.mpr
    fun c (_ : c ∈ constructors) => c.needsAll_toJson)
  have hmethods := needsAll_isListOf (List.forall_mem_map.mpr
    fun m (_ : m ∈ methods) => m.needsAll_toJson)
  have hinners := needsAll_isListOf h
  simp [demands, demandsOf, flagFields, TypeFlags.entries, Kind.toJson, hfields, hconstructors,
    hmethods, hinners]

mutual
/-- **An outline needs all entries of its document.** -/
theorem needsAll_toJson : (o : Outline) →
    NeedsAll (fun k => (ofJson? k).isSome = true) o.toJson
  | ⟨_, _, _, _, _, _, _, _, _, inners⟩ => needsAll_of_inners (needsAll_toJsonAll inners)

theorem needsAll_toJsonAll : (os : List Outline) →
    ∀ j ∈ toJsonAll os, NeedsAll (fun k => (ofJson? k).isSome = true) j
  | [] => by simp [toJsonAll]
  | o :: os => by
      rw [toJsonAll, List.forall_mem_cons]
      exact ⟨needsAll_toJson o, needsAll_toJsonAll os⟩
end

/-- **What has lost entries is not read.** -/
theorem ofJson?_eq_none_of_removes {o : Outline} {k : Json}
    (h : Relation.TransGen Removes o.toJson k) : ofJson? k = none := by
  have hfewer : k.entryCount < o.toJson.entryCount := by
    induction h with
    | single hstep => exact hstep.entryCount_lt
    | tail _ hstep ih => exact hstep.entryCount_lt.trans ih
  cases hread : ofJson? k with
  | none => rfl
  | some p =>
      have hwhole : k = o.toJson := o.needsAll_toJson k h.to_reflTransGen (by simp [hread])
      rw [hwhole] at hfewer
      exact absurd hfewer (Nat.lt_irrefl _)

/-! ## Strict documents -/

/-- An outline without nested types is in every outline, by induction on the outline. -/
theorem exists_follow?_inners_nil : (o : Outline) →
    ∃ path p, o.follow? path = some p ∧ p.inners = []
  | ⟨name, kind, flags, superclasses, interfaces, annotations, fields, constructors, methods,
      []⟩ => ⟨[], _, rfl, rfl⟩
  | ⟨name, kind, flags, superclasses, interfaces, annotations, fields, constructors, methods,
      first :: _⟩ => by
      obtain ⟨path, p, hpath, hp⟩ := exists_follow?_inners_nil first
      exact ⟨.position 0 :: path, p, hpath, hp⟩

theorem toJsonAll_eq_map (os : List Outline) : toJsonAll os = os.map toJson := by
  induction os with
  | nil => rfl
  | cons o os ih => rw [toJsonAll, ih, List.map_cons]

/-- The documents of the nested types are the last value of the document. -/
theorem exists_toJson_eq (o : Outline) :
    ∃ front, o.toJson = .object (front ++ [("inners", .array (o.inners.map toJson))]) := by
  cases o
  rw [toJson, toJsonAll_eq_map]
  exact ⟨_, congrArg Json.object (List.dropLast_append_getLast? _ rfl).symm⟩

/-- A step leads to one of the nested types. -/
theorem mem_inners_of_step? {o p : Outline} {step : Step} (h : o.step? step = some p) :
    p ∈ o.inners := by
  cases step with
  | position i => exact List.mem_of_getElem? h
  | name name => exact List.mem_of_find?_eq_some h

/-- What can be deleted at the end of a path can be deleted in the whole. -/
theorem exists_deletes_of_follow? {o p : Outline} {path : List Step}
    (h : o.follow? path = some p) (hp : ∃ k, Deletes p.toJson k) : ∃ k, Deletes o.toJson k := by
  induction path generalizing o with
  | nil =>
      obtain rfl := Option.some.inj h
      exact hp
  | cons step path ih =>
      obtain ⟨child, hstep, hrest⟩ := Option.bind_eq_some_iff.mp h
      obtain ⟨k, hk⟩ := ih hrest
      obtain ⟨before, after, hinners⟩ := List.append_of_mem (mem_inners_of_step? hstep)
      obtain ⟨front, heq⟩ := o.exists_toJson_eq
      rw [heq, hinners, List.map_append, List.map_cons]
      exact ⟨_, .value front [] (.item _ _ hk)⟩

/-- Something can be deleted from the document of every outline. -/
theorem exists_deletes (o : Outline) : ∃ k, Deletes o.toJson k := by
  obtain ⟨path, p, hpath, hinners⟩ := o.exists_follow?_inners_nil
  obtain ⟨front, heq⟩ := p.exists_toJson_eq
  refine exists_deletes_of_follow? hpath ?_
  rw [heq, hinners]
  exact ⟨_, .entry front [] .noItems⟩

/-- Pruning the document of an outline takes entries away. -/
theorem removes_prune_toJson (o : Outline) :
    Relation.TransGen Removes o.toJson (o.toJson.prune true) := by
  have hreaches : Relation.ReflTransGen Removes o.toJson (o.toJson.prune true) :=
    Relation.ReflTransGen.mono (fun _ _ => Deletes.removes) _ _ (reaches_pruned o.toJson)
  cases Relation.reflTransGen_iff_eq_or_transGen.mp hreaches with
  | inr h => exact h
  | inl heq =>
      obtain ⟨k, hk⟩ := o.exists_deletes
      have hsettled := isSettled_pruned o.toJson
      rw [← prune_true, heq] at hsettled
      exact absurd hk (hsettled k)

end Outline

/-- **Every key is required**: a document from which one or more entries are removed, at any
depths, is not read as an outline. In particular no strict document is, since in every outline
there is one without nested types. -/
theorem every_key_required :
    (∀ (o : Outline) (k : Json), Relation.TransGen Removes o.toJson k → Outline.ofJson? k = none)
      ∧ ∀ o : Outline, (∃ path p, o.follow? path = some p ∧ p.inners = [])
        ∧ Outline.ofJson? (o.toJson.prune true) = none :=
  ⟨fun _ _ h => Outline.ofJson?_eq_none_of_removes h, fun o =>
    ⟨o.exists_follow?_inners_nil, Outline.ofJson?_eq_none_of_removes o.removes_prune_toJson⟩⟩

/-- An annotation type with an element, of which a key is gone, like one of the type itself. -/
theorem every_key_required_element :
    let o : Outline := ⟨"A", .annotationType, ⟨false, false, false, false, false, false⟩, [], [],
      [], [], [], [.element ⟨"v", "int", true⟩], []⟩
    let k : Json := .object ([("name", .string "A"), ("kind", .string "Annotation")]
      ++ o.flags.entries ++ [("implements", .array []), ("annotations", .array []),
        ("fields", .array []), ("constructors", .array []),
        ("methods", .array [.object [("name", .string "v"), ("returnType", .string "int")]]),
        ("inners", .array [])])
    Relation.TransGen Removes o.toJson k ∧ Outline.ofJson? k = none := by
  intro o k
  let front : List (String × Json) :=
    [("name", .string "A"), ("kind", .string "Annotation")] ++ o.flags.entries
  let middle : List (String × Json) := [("implements", .array []), ("annotations", .array []),
    ("fields", .array []), ("constructors", .array [])]
  let element : List (String × Json) := [("name", .string "v"), ("returnType", .string "int")]
  have hextends : Removes o.toJson (.object (front ++ (middle
      ++ [("methods", .array [.object (element ++ [("hasDefault", .bool true)])]),
        ("inners", .array [])]))) := .entry front _
  have hdefault : Removes (.object (front ++ (middle
      ++ [("methods", .array [.object (element ++ [("hasDefault", .bool true)])]),
        ("inners", .array [])]))) k :=
    .value (front ++ middle) [("inners", .array [])] (.item [] [] (.entry element []))
  have hremoves : Relation.TransGen Removes o.toJson k := .head hextends (.single hdefault)
  exact ⟨hremoves, every_key_required.1 o k hremoves⟩

end JavaOutline

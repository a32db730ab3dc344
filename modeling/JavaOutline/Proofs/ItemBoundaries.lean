import JavaOutline.Proofs.LocalMatching
import JavaOutline.Proofs.NodeShapes

/-!
# JavaOutline.Proofs.ItemBoundaries

Where the items of a file end.

Brackets come in pairs wherever the grammar takes them (`balanced_form`). So an item ends at
its first semicolon outside of brackets, or else where the braces of its body close, and the
patterns of items never look behind that end: an item that was read is read whatever follows
it (`itemForm_append`), and a file of items can be put in front of any other tokens
(`many_topLevel_append`).
-/

namespace JavaOutline.Grammar

open Source Structure Pattern

/-! ## Levels of brackets -/

/-- The texts that open a pair of brackets. -/
def openings : List String := ["(", "[", "\x7b"]

/-- The texts that close a pair of brackets. -/
def closings : List String := [")", "]", "\x7d"]

/-- The number of brackets that are open; the scan is done when one closes that was open
before it began. -/
def levelScan : Scan (Option Nat) where
  next
    | none, _ => none
    | some n, s =>
      if openings.contains s then some (n + 1)
      else if closings.contains s then (if n = 0 then none else some (n - 1))
      else some n
  done := none

/-- A rule other than those that stand for a whole file or for an item of one. -/
def Rule.isInner (r : Rule) : Bool := r != .unit && r != .topLevel

/-- Inner rules close all the brackets that they open. -/
def levelStates (r : Rule) : Option Nat → Option (Option Nat)
  | none => none
  | some n => if r.isInner then some (some n) else none

theorem balanced_form : ∀ r ∈ Rule.all, r.isInner = true →
    after levelScan levelStates r.form (some 0) = some (some 0) := by
  decide +kernel

/-- Behind a closing bracket too many there is no way back. -/
theorem after_levelScan_none {p : Form} {s : Option Nat}
    (h : after levelScan levelStates p none = some s) : s = none := by
  induction p generalizing s with
  | nothing => exact (Option.some.inj h).symm
  | token | ahead | «unless» | rule => simp [after, levelScan, levelStates] at h
  | node _ _ ih => exact ih h
  | seq _ _ ih₁ ih₂ =>
      obtain ⟨mid, hfirst, hsecond⟩ := Option.bind_eq_some_iff.mp h
      rw [ih₁ hfirst] at hsecond
      exact ih₂ hsecond
  | choice _ _ ih₁ _ =>
      simp only [after, Option.ite_none_right_eq_some] at h
      exact ih₁ h.2
  | many _ ih =>
      simp only [after, Option.ite_none_right_eq_some, Option.some.injEq] at h
      exact h.2.symm

section

variable {σ : Type} [DecidableEq σ] {scan : Scan σ} {states : Rule → σ → Option σ} {at_ : Nat → σ}

/-- Part of a scan counts the levels of brackets, above the level where it began. -/
structure CountsLevels (scan : Scan σ) (states : Rule → σ → Option σ) (at_ : Nat → σ) : Prop where
  ne_done : ∀ n, at_ n ≠ scan.done
  next : ∀ {n n' s}, levelScan.next (some n) s = some n' → scan.next (at_ n) s = at_ n'
  states : ∀ {r : Rule} {n}, r.isInner = true → states r (at_ n) = some (at_ n)

theorem CountsLevels.afterToken (h : CountsLevels scan states at_) {n n' : Nat}
    {terminal : Terminal} (hn : afterToken levelScan (some n) terminal = some (some n')) :
    afterToken scan (at_ n) terminal = some (at_ n') := by
  cases terminal with
  | oneOf texts =>
      cases texts with
      | nil => contradiction
      | cons x xs =>
          simp only [Pattern.afterToken, commonNext, Option.ite_none_right_eq_some,
            List.all_eq_true, decide_eq_true_eq, Option.some.injEq] at hn ⊢
          rw [h.next hn.2]
          exact ⟨fun y hy => h.next ((hn.1 y hy).trans hn.2), rfl⟩
  | joined text => exact congrArg some (h.next (Option.some.inj hn))
  | word | literal | string =>
      rw [Option.some.inj (Option.some.inj hn)]
      rfl
  | finish => contradiction

/-- What a pattern does to the level of brackets, it does at any level. -/
theorem CountsLevels.after (h : CountsLevels scan states at_) {p : Form} {n n' : Nat}
    (hn : after levelScan levelStates p (some n) = some (some n')) :
    after scan states p (at_ n) = some (at_ n') := by
  induction p generalizing n n' with
  | nothing =>
      rw [Option.some.inj (Option.some.inj hn)]
      rfl
  | token terminal =>
      simp only [Pattern.after, Option.ite_none_left_eq_some] at hn ⊢
      exact ⟨h.ne_done n, h.afterToken hn.2⟩
  | ahead | «unless» =>
      simp only [Pattern.after, Option.ite_none_left_eq_some, Option.some.injEq] at hn ⊢
      exact ⟨h.ne_done n, by rw [hn.2]⟩
  | rule r =>
      simp only [Pattern.after, levelStates, Option.ite_none_right_eq_some, Option.some.injEq] at hn
      rw [← hn.2]
      exact h.states hn.1
  | node _ _ ih => exact ih hn
  | seq _ _ ih₁ ih₂ =>
      obtain ⟨mid, hfirst, hsecond⟩ := Option.bind_eq_some_iff.mp hn
      cases mid with
      | none => exact absurd (after_levelScan_none hsecond) (by simp)
      | some m =>
          rw [Pattern.after, ih₁ hfirst]
          exact ih₂ hsecond
  | choice _ _ ih₁ ih₂ =>
      simp only [Pattern.after, Option.ite_none_right_eq_some] at hn ⊢
      rw [ih₁ hn.2, ih₂ (hn.1 ▸ hn.2)]
      exact ⟨rfl, rfl⟩
  | many _ ih =>
      simp only [Pattern.after, Option.ite_none_right_eq_some, Option.some.injEq] at hn ⊢
      obtain ⟨hbody, rfl⟩ := hn
      exact ⟨ih hbody, rfl⟩

end

/-! ## Stages of an item -/

/-- How far a part of a file has been read: in front of its body or inside of it, within a
number of further brackets, or to its end. -/
inductive Stage where
  | head (level : Nat)
  | body (level : Nat)
  | done
  deriving DecidableEq

/-- Reads a part of a file that ends with one of the texts `stops` outside of brackets, or
else where the braces of its body close. -/
def stageScan (stops : List String) : Scan Stage where
  next
    | .head 0, s =>
      if stops.contains s then .done
      else if s = "\x7b" then .body 0
      else if openings.contains s then .head 1
      else .head 0
    | .head (n + 1), s =>
      if openings.contains s then .head (n + 2)
      else if closings.contains s then .head n
      else .head (n + 1)
    | .body n, s =>
      if openings.contains s then .body (n + 1)
      else if closings.contains s then (if n = 0 then .done else .body (n - 1))
      else .body n
    | .done, _ => .done
  done := .done

/-- Inside of brackets, inner rules end at the level where they begin; where they lead
outside of brackets is said by `shallow`. -/
def stageStates (shallow : Rule → Option Stage) (r : Rule) : Stage → Option Stage
  | .head 0 => shallow r
  | .head (n + 1) => if r.isInner then some (.head (n + 1)) else none
  | .body n => if r.isInner then some (.body n) else none
  | .done => none

section

variable {stops : List String} {shallow : Rule → Option Stage}

theorem countsLevels_head (k : Nat) :
    CountsLevels (stageScan stops) (stageStates shallow) (fun n => .head (n + k + 1)) where
  ne_done n := by simp [stageScan]
  next {n n' s} h := by
    simp only [levelScan, stageScan] at h ⊢
    split at h
    · simp_all; omega
    · split at h
      · split at h <;> simp_all; omega
      · simp_all
  states h := by simp [stageStates, h]

theorem countsLevels_body (k : Nat) :
    CountsLevels (stageScan stops) (stageStates shallow) (fun n => .body (n + k)) where
  ne_done n := by simp [stageScan]
  next {n n' s} h := by
    simp only [levelScan, stageScan] at h ⊢
    split at h
    · simp_all; omega
    · split at h
      · split at h <;> simp_all; omega
      · simp_all
  states h := by simp [stageStates, h]

/-- If the states behind rules outside of brackets are right, all of them are. -/
theorem after_stageScan (hshallow : ∀ r ∈ Rule.all, ∀ s, shallow r = some s →
      after (stageScan stops) (stageStates shallow) r.form (.head 0) = some s)
    (r : Rule) (s s' : Stage) (h : stageStates shallow r s = some s') :
    after (stageScan stops) (stageStates shallow) r.form s = some s' := by
  have hr := r.mem_all
  cases s with
  | head n =>
      cases n with
      | zero => exact hshallow r hr s' h
      | succ n =>
          simp only [stageStates, Option.ite_none_right_eq_some, Option.some.injEq] at h
          have hcounts : CountsLevels (stageScan stops) (stageStates shallow) _ := countsLevels_head n
          have hlevel := hcounts.after (balanced_form r hr h.1)
          rw [← h.2]
          simpa using hlevel
  | body n =>
      simp only [stageStates, Option.ite_none_right_eq_some, Option.some.injEq] at h
      have hcounts : CountsLevels (stageScan stops) (stageStates shallow) _ := countsLevels_body n
      have hlevel := hcounts.after (balanced_form r hr h.1)
      rw [← h.2]
      simpa using hlevel
  | done => contradiction

end

/-! ## Items -/

/-- The items of a file: stray semicolons, packages, imports, types, and modules and blocks,
which end in the same way. -/
def itemForms : List Form :=
  [text ";", .rule .block, packageForm, importForm, moduleForm, .rule .typeDeclaration]

/-- Where rules lead outside of brackets in an item. -/
def itemStates : Rule → Option Stage
  | .typeDeclaration | .classBody | .block => some .done
  | .annotationUse | .type _ | .anyType _ | .typeArguments | .dimensions | .typeParameters
  | .parameters _ => some (.head 0)
  | _ => none

/-- The scan of an item. -/
abbrev itemScan : Scan Stage := stageScan [";"]

theorem after_itemStates : ∀ r ∈ Rule.all, ∀ s, itemStates r = some s →
    after itemScan (stageStates itemStates) r.form (.head 0) = some s := by
  have hall : ∀ r ∈ Rule.all, itemStates r = none
      ∨ after itemScan (stageStates itemStates) r.form (.head 0) = itemStates r := by
    decide +kernel
  intro r hr s hs
  rcases hall r hr with hnone | heq
  · rw [hnone] at hs
    contradiction
  · rw [heq, hs]

/-- Items end where their scan is done. -/
theorem after_itemForms :
    after itemScan (stageStates itemStates) (any itemForms) (.head 0) = some .done := by
  decide +kernel

/-- Is the tree a stray semicolon, a package, an import or a type? The end of the file may
stand among them. -/
def isItem : SyntaxTree → Bool
  | .leaf t => t.text == ";" || t.text == ""
  | .node label _ => label == .package || label == .importing || label == .declaration

theorem parse_any_append (depth : Nat) (ps : List Form) (hps : ps ≠ []) (q : Form)
    (input : List Token) : parse Rule.form depth (any (ps ++ [q])) input
      = (parse Rule.form depth (any ps) input).or (parse Rule.form depth q input) := by
  induction ps with
  | nil => contradiction
  | cons p ps ih =>
      cases ps with
      | nil =>
          simp only [List.cons_append, List.nil_append, any, parse_choice]
          cases parse Rule.form depth p input <;> rfl
      | cons p' ps =>
          have ih := ih (by simp)
          simp only [List.cons_append, any, parse_choice] at ih ⊢
          cases parse Rule.form depth p input with
          | none => exact ih
          | some => rfl

/-- What stands at the top level are items, other statements, and methods. -/
theorem parse_topLevel (depth : Nat) (input : List Token) :
    ∃ ps, parse Rule.form (depth + 2) (.rule .topLevel) input
      = ((parse Rule.form depth (any itemForms) input).or
          (parse Rule.form depth (.node .statement (any ps)) input)).or
        (parse Rule.form (depth + 1) (.seq modifiers (methodForm .statement)) input) := by
  have htop : Rule.form .topLevel
      = any ([.rule .statement] ++ [.seq modifiers (methodForm .statement)]) := rfl
  rw [parse_rule_succ, htop, parse_any_append _ _ (by simp)]
  exact ⟨_, congrArg (Option.or · _) (parse_any_append depth itemForms (by simp [itemForms]) _ input)⟩

/-- What is matched at the top level is matched as an item if its trees are items. -/
theorem parse_itemForms {input rest : List Token} {ts : List SyntaxTree} {depth : Nat}
    (h : parse Rule.form (depth + 2) (.rule .topLevel) input = some (ts, rest))
    (hitems : ∀ t ∈ ts, isItem t = true) :
    parse Rule.form depth (any itemForms) input = some (ts, rest) := by
  obtain ⟨ps, heq⟩ := parse_topLevel depth input
  rw [heq, Option.or_eq_some_iff, Option.or_eq_some_iff] at h
  rcases h with (hitem | ⟨-, hstatement⟩) | ⟨-, hmethod⟩
  · exact hitem
  · obtain ⟨us, -, rfl⟩ := forms_node.mp (forms_of_parse hstatement)
    exact absurd (hitems _ (List.mem_singleton_self _)) (by simp [isItem])
  · obtain ⟨us, vs, -, hvs, rfl⟩ := forms_seq.mp (forms_of_parse hmethod)
    obtain ⟨ws, -, rfl⟩ := forms_node.mp hvs
    exact absurd (hitems (.node .method ws) (by simp)) (by simp [isItem])

/-- **An item stays an item whatever follows it.** -/
theorem topLevel_append {ts : List SyntaxTree} {r : List Token}
    (h : parse Rule.form depthLimit (.rule .topLevel) (ParseTree.tokensAll ts ++ r) = some (ts, r))
    (hitems : ∀ t ∈ ts, isItem t = true)
    (hpasses : ∀ t ∈ ParseTree.tokensAll ts, itemScan.Passes t) (r' : List Token) :
    ParseTree.tokensAll ts ≠ []
      ∧ parse Rule.form depthLimit (.rule .topLevel) (ParseTree.tokensAll ts ++ r')
        = some (ts, r') := by
  have hdepth : depthLimit = 38 + 2 := rfl
  rw [hdepth] at h ⊢
  have hstates := after_stageScan after_itemStates
  have hitem := parse_itemForms h hitems
  constructor
  · intro hnil
    have hscan := (forms_of_parse hitem).behind?_eq hstates after_itemForms hpasses
    rw [hnil] at hscan
    contradiction
  · obtain ⟨ps, heq⟩ := parse_topLevel 38 (ParseTree.tokensAll ts ++ r')
    rw [heq, parse_append_congr hstates after_itemForms hitem hpasses r']
    rfl

/-- **A file of items may stand in front of anything.** -/
theorem many_topLevel_append {ts us : List SyntaxTree} {r r' rest : List Token}
    (h : parse Rule.form depthLimit (.many (.rule .topLevel)) (ParseTree.tokensAll ts ++ r)
      = some (ts, r))
    (hitems : ∀ t ∈ ts, isItem t = true)
    (hpasses : ∀ t ∈ ParseTree.tokensAll ts, itemScan.Passes t)
    (h' : parse Rule.form depthLimit (.many (.rule .topLevel)) r' = some (us, rest)) :
    parse Rule.form depthLimit (.many (.rule .topLevel)) (ParseTree.tokensAll ts ++ r')
      = some (ts ++ us, rest) := by
  induction hn : (ParseTree.tokensAll ts).length using Nat.strongRecOn generalizing ts with
  | ind n ih =>
      subst hn
      rcases or_of_many h with ⟨rfl, -⟩ | ⟨ts₁, mid, hfirst, ⟨-, ts₂, hmore, rfl⟩ | ⟨hlen, rfl, -⟩⟩
      · exact h'
      · obtain rfl := tokens_of_parse hmore
        rw [ParseTree.tokensAll_append, List.forall_mem_append] at hpasses
        rw [List.forall_mem_append] at hitems
        rw [← tokens_of_parse hfirst] at hfirst
        obtain ⟨hne, hfirst'⟩ := topLevel_append hfirst hitems.1 hpasses.1
          (ParseTree.tokensAll ts₂ ++ r')
        have hpos := List.length_pos_iff.mpr hne
        have hmore' := ih _ (by simp [ParseTree.tokensAll_append]; omega) hmore hitems.2
          hpasses.2 rfl
        rw [ParseTree.tokensAll_append, List.append_assoc, parse_many, hfirst']
        simp only [List.length_append, hmore']
        rw [if_pos (by omega), List.append_assoc]
      · -- Every item takes a token.
        obtain rfl := List.append_cancel_left (tokens_of_parse hfirst)
        have hpos := List.length_pos_iff.mpr (topLevel_append hfirst hitems hpasses []).1
        rw [List.length_append] at hlen
        omega

end JavaOutline.Grammar

import JavaOutline.Proofs.TreeMeaning

/-!
# JavaOutline.Proofs.HiddenCode

Code inside of declarations is not part of the structure of a file.

Code stands in the bodies of methods and constructors, in initializer blocks and initial
values, in the constants of enumerations, in default values of elements, in the arguments
of annotations in front of a declaration, and in statements outside of any type.
`hollow` takes it out of a tree and leaves the sign that opens it. What a file declares can
be read off its trees without the code (`unitOf_hollowAll`).
-/

namespace JavaOutline.Structure

open Grammar Source ParseTree

/-! ## Taking code out -/

/-- How many tokens open the code that a node of the label holds, if it holds code. -/
def codeOpening? : Label → Option Nat
  | .block | .arguments | .defaultValue => some 1
  | .value | .constants | .statement => some 0
  | _ => none

/-- May code stand somewhere inside a node of the label, outside of which there is none? -/
def isAroundCode (label : Label) : Bool :=
  isRead label || label == .package || label == .annotationUse || label == .compactConstructor

mutual
/-- A tree without the code inside its declarations. -/
def hollow : SyntaxTree → SyntaxTree
  | .leaf t => .leaf t
  | .node label ts =>
    match codeOpening? label with
    | some n => .node label (ts.take n)
    | none => if isAroundCode label then .node label (hollowAll ts) else .node label ts

/-- Trees without the code inside their declarations. -/
def hollowAll : List SyntaxTree → List SyntaxTree
  | [] => []
  | t :: ts => hollow t :: hollowAll ts
end

theorem hollowAll_eq_map (ts : List SyntaxTree) : hollowAll ts = ts.map hollow := by
  induction ts with
  | nil => rfl
  | cons t ts ih => rw [hollowAll, ih, List.map_cons]

theorem hollowAll_append (ts us : List SyntaxTree) :
    hollowAll (ts ++ us) = hollowAll ts ++ hollowAll us := by
  simp only [hollowAll_eq_map, List.map_append]

theorem hollow_code {label : Label} {n : Nat} (h : codeOpening? label = some n)
    (ts : List SyntaxTree) : hollow (.node label ts) = .node label (ts.take n) := by
  simp only [hollow, h]

theorem hollow_around {label : Label} (hcode : codeOpening? label = none)
    (h : isAroundCode label = true) (ts : List SyntaxTree) :
    hollow (.node label ts) = .node label (hollowAll ts) := by
  simp only [hollow, hcode, if_pos h]

theorem hollow_plain {label : Label} (hcode : codeOpening? label = none)
    (h : isAroundCode label = false) (ts : List SyntaxTree) :
    hollow (.node label ts) = .node label ts := by
  simp [hollow, hcode, h]

/-- A node stays a node of its label. -/
theorem exists_hollow_eq (label : Label) (ts : List SyntaxTree) :
    ∃ us, hollow (.node label ts) = .node label us := by
  rw [hollow]
  split
  · exact ⟨_, rfl⟩
  · split <;> exact ⟨_, rfl⟩

/-- A node without code in or around it stays as it is. -/
theorem inside?_hollowAll (label : Label) (hcode : codeOpening? label = none)
    (h : isAroundCode label = false) (ts : List SyntaxTree) :
    inside? label (hollowAll ts) = inside? label ts := by
  induction ts with
  | nil => rfl
  | cons t ts ih =>
      simp only [inside?] at ih ⊢
      rw [hollowAll, List.findSome?_cons, List.findSome?_cons, ih]
      cases t with
      | leaf => rfl
      | node l us =>
          by_cases hl : l = label
          · rw [hl, hollow_plain hcode h]
          · obtain ⟨vs, hvs⟩ := exists_hollow_eq l us
            simp [hvs, hl]

/-! ## Reading hollow trees -/

/-- A node that is read as a whole says the same without the code in it. -/
theorem sameContent_hollowAll {label : Label} (h : isAroundCode label = true)
    (hread : isRead label = false) (ts : List SyntaxTree) :
    SameContent label ts (hollowAll ts) := by
  have hname : compactText (inside .name ts) = compactText (inside .name (hollowAll ts)) := by
    rw [inside, inside, inside?_hollowAll .name rfl rfl]
  cases label
  case annotationUse => exact hname
  all_goals trivial

mutual
/-- **A tree says the same without the code in it.** -/
theorem saysSame_hollow : (t : SyntaxTree) → SaysSame t (hollow t)
  | .leaf t => .leaf rfl
  | .node label ts => by
      have hall := allSaySame_hollowAll ts
      cases hcode : codeOpening? label with
      | some n =>
          rw [hollow_code hcode]
          cases label
          case block | arguments | defaultValue | value | constants | statement =>
            exact .content rfl trivial
          all_goals contradiction
      | none =>
          cases haround : isAroundCode label with
          | false =>
              rw [hollow_plain hcode haround]
              simp only [isAroundCode, Bool.or_eq_false_iff] at haround
              exact .content haround.1.1.1 (sameContent_refl label ts)
          | true =>
              rw [hollow_around hcode haround]
              cases hread : isRead label with
              | true => exact .read hread hall
              | false => exact .content hread (sameContent_hollowAll haround hread ts)

theorem allSaySame_hollowAll : (ts : List SyntaxTree) → AllSaySame ts (hollowAll ts)
  | [] => .nil
  | t :: ts => .cons (saysSame_hollow t) (allSaySame_hollowAll ts)
end

theorem package?_hollow (t : SyntaxTree) : package? (hollow t) = package? t := by
  cases t with
  | leaf => rfl
  | node label ts =>
      cases label
      case package =>
        rw [hollow_around rfl rfl]
        simp only [package?, inside, inside?_hollowAll .name rfl rfl]
      all_goals rfl

theorem import?_hollow (t : SyntaxTree) : import? (hollow t) = import? t := by
  cases t with
  | leaf => rfl
  | node label ts => cases label <;> rfl

/-- **What a file declares stands outside of the code in it.** -/
theorem unitOf_hollowAll (ts : List SyntaxTree) : unitOf (hollowAll ts) = unitOf ts := by
  have hmembers : members (ts.map hollow) = members ts := by
    rw [← hollowAll_eq_map, (allSaySame_hollowAll ts).members_eq]
  have hpackage : package? ∘ hollow = package? := funext package?_hollow
  have himport : import? ∘ hollow = import? := funext import?_hollow
  simp only [unitOf, hollowAll_eq_map, hmembers, List.filterMap_map, hpackage, himport]

end JavaOutline.Structure

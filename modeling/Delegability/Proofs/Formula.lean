/-
# `Delegability.Proofs.Formula` — nodes of formulas

A formula holds lists of formulas, so the induction that comes with the type
says nothing about arguments.  `Expr.ind` is the induction the rules follow:
one case per kind of node, and for a call a hypothesis for each argument.

The sub-expressions of a formula are the members of its `postorder`.  Most of
this module says how they nest.

* `mem_postorder_trans`: a sub-expression of a sub-expression is one;
* `mem_of_arg`, `mem_of_left`, …: so is what stands directly below one, which is how
  an induction over all sub-expressions of a fixed formula goes down.
-/
import Delegability.Rules

namespace Delegability

namespace Expr

/-! ## Induction -/

/-- Induction over formulas: a call may use the claim for each of its arguments. -/
theorem ind {motive : Expr → Prop}
    (call : ∀ id head args, (∀ a ∈ args, motive a) → motive (.call id head args))
    (dotted : ∀ id left right, motive left → motive (.dotted id left right))
    (first : ∀ id name, motive (.first id name))
    (binary : ∀ id op left right, motive left → motive right → motive (.binary id op left right))
    (unary : ∀ id op operand, motive operand → motive (.unary id op operand))
    (literal : ∀ id value, motive (.literal id value))
    (other : ∀ id description, motive (.other id description)) (e : Expr) : motive e := by
  refine @Expr.rec motive (fun args => ∀ a ∈ args, motive a) call dotted first binary unary
    literal other ?nil ?cons e
  case nil => exact fun _ h => absurd h List.not_mem_nil
  case cons =>
    intro e es he hes a ha
    rcases List.mem_cons.mp ha with rfl | ha
    · exact he
    · exact hes a ha

/-! ## Sub-expressions -/

theorem postorderArgs_eq_flatMap : ∀ args : List Expr,
    postorderArgs args = args.flatMap postorder
  | [] => rfl
  | e :: es => by rw [postorderArgs, List.flatMap_cons, postorderArgs_eq_flatMap es]

theorem mem_postorderArgs {args : List Expr} {x : Expr} :
    x ∈ postorderArgs args ↔ ∃ a ∈ args, x ∈ a.postorder := by
  rw [postorderArgs_eq_flatMap, List.mem_flatMap]

/-- A formula is one of its sub-expressions. -/
theorem self_mem_postorder (e : Expr) : e ∈ e.postorder := by
  cases e <;> simp [postorder]

theorem mem_postorder_arg {id : NodeId} {head : Name} {args : List Expr} {a x : Expr}
    (ha : a ∈ args) (hx : x ∈ a.postorder) : x ∈ (Expr.call id head args).postorder := by
  rw [postorder]
  exact List.mem_append_left _ (mem_postorderArgs.mpr ⟨a, ha, hx⟩)

theorem mem_postorder_dotted {id : NodeId} {left : Expr} {right : Name} {x : Expr}
    (hx : x ∈ left.postorder) : x ∈ (Expr.dotted id left right).postorder := by
  rw [postorder]
  exact List.mem_append_left _ hx

theorem mem_postorder_left {id : NodeId} {op : BinaryOp} {left right x : Expr}
    (hx : x ∈ left.postorder) : x ∈ (Expr.binary id op left right).postorder := by
  rw [postorder]
  exact List.mem_append_left _ (List.mem_append_left _ hx)

theorem mem_postorder_right {id : NodeId} {op : BinaryOp} {left right x : Expr}
    (hx : x ∈ right.postorder) : x ∈ (Expr.binary id op left right).postorder := by
  rw [postorder]
  exact List.mem_append_left _ (List.mem_append_right _ hx)

theorem mem_postorder_operand {id : NodeId} {op : UnaryOp} {operand x : Expr}
    (hx : x ∈ operand.postorder) : x ∈ (Expr.unary id op operand).postorder := by
  rw [postorder]
  exact List.mem_append_left _ hx

/-- A sub-expression of a sub-expression is one. -/
theorem mem_postorder_trans {x y : Expr} (hx : x ∈ y.postorder) :
    ∀ {e : Expr}, y ∈ e.postorder → x ∈ e.postorder := by
  intro e
  induction e using Expr.ind with
  | call id head args ih =>
      intro hy
      rw [postorder] at hy
      rcases List.mem_append.mp hy with hy | hy
      · obtain ⟨a, ha, hya⟩ := mem_postorderArgs.mp hy
        exact mem_postorder_arg ha (ih a ha hya)
      · exact List.mem_singleton.mp hy ▸ hx
  | dotted id left right ih =>
      intro hy
      rw [postorder] at hy
      rcases List.mem_append.mp hy with hy | hy
      · exact mem_postorder_dotted (ih hy)
      · exact List.mem_singleton.mp hy ▸ hx
  | binary id op left right ihl ihr =>
      intro hy
      rw [postorder] at hy
      rcases List.mem_append.mp hy with hy | hy
      · rcases List.mem_append.mp hy with hy | hy
        · exact mem_postorder_left (ihl hy)
        · exact mem_postorder_right (ihr hy)
      · exact List.mem_singleton.mp hy ▸ hx
  | unary id op operand ih =>
      intro hy
      rw [postorder] at hy
      rcases List.mem_append.mp hy with hy | hy
      · exact mem_postorder_operand (ih hy)
      · exact List.mem_singleton.mp hy ▸ hx
  | first id name =>
      intro hy
      exact List.mem_singleton.mp hy ▸ hx
  | literal id value =>
      intro hy
      exact List.mem_singleton.mp hy ▸ hx
  | other id description =>
      intro hy
      exact List.mem_singleton.mp hy ▸ hx

section

variable {e : Expr} {id : NodeId}

theorem mem_of_arg {head : Name} {args : List Expr} {a : Expr}
    (h : .call id head args ∈ e.postorder) (ha : a ∈ args) : a ∈ e.postorder :=
  mem_postorder_trans (mem_postorder_arg ha (self_mem_postorder a)) h

theorem mem_of_dotted {left : Expr} {right : Name} (h : .dotted id left right ∈ e.postorder) :
    left ∈ e.postorder :=
  mem_postorder_trans (mem_postorder_dotted (self_mem_postorder left)) h

theorem mem_of_left {op : BinaryOp} {left right : Expr}
    (h : .binary id op left right ∈ e.postorder) : left ∈ e.postorder :=
  mem_postorder_trans (mem_postorder_left (self_mem_postorder left)) h

theorem mem_of_right {op : BinaryOp} {left right : Expr}
    (h : .binary id op left right ∈ e.postorder) : right ∈ e.postorder :=
  mem_postorder_trans (mem_postorder_right (self_mem_postorder right)) h

theorem mem_of_operand {op : UnaryOp} {operand : Expr}
    (h : .unary id op operand ∈ e.postorder) : operand ∈ e.postorder :=
  mem_postorder_trans (mem_postorder_operand (self_mem_postorder operand)) h

end

/-- The formula has a call of this identity. -/
def HasCall (e : Expr) (id : NodeId) : Prop := ∃ head args, .call id head args ∈ e.postorder

/-- The formula has an access of this identity. -/
def HasAccess (e : Expr) (id : NodeId) : Prop := ∃ left right, .dotted id left right ∈ e.postorder

/-- What the left sides of an access end in; any other formula is its own end. -/
def spineBottom : Expr → Expr
  | .dotted _ left _ => left.spineBottom
  | e => e

theorem spineBottom_ne_dotted : ∀ (e : Expr) {id : NodeId} {left : Expr} {right : Name},
    e.spineBottom ≠ .dotted id left right
  | .dotted _ left _ => spineBottom_ne_dotted left
  | .call .. | .first .. | .binary .. | .unary .. | .literal .. | .other .. =>
      fun h => Expr.noConfusion h

end Expr

/-! ## Readings -/

namespace Scope

theorem judgeArgs_eq_map (s : Scope) : ∀ args : List Expr, s.judgeArgs args = args.map s.judge
  | [] => rfl
  | e :: es => by rw [judgeArgs, List.map_cons, judgeArgs_eq_map s es]

theorem forall_mem_judgeArgs {s : Scope} {args : List Expr} {P : Reading → Prop}
    (h : ∀ a ∈ args, P (s.judge a)) : ∀ r ∈ s.judgeArgs args, P r := by
  rw [judgeArgs_eq_map]
  exact List.forall_mem_map.mpr h

/-- A node is read under its own identity. -/
@[simp]
theorem judge_id (s : Scope) (e : Expr) : (s.judge e).id = e.id := by
  cases e <;> simp [judge, Expr.id]

end Scope

end Delegability

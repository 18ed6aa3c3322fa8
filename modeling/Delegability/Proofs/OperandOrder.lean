/-
# `Delegability.Proofs.OperandOrder` — operands may change places

The operands of an operator are judged left first, and the walk stops at the first thing that
stands against the formula.  So where operands change places the walk goes another way, stops
elsewhere and gives another reason.  Whether it stops at all does not depend on the way: an
operand that is accepted leaves nothing behind that the other one reads.

    p  ──left──▸  m  ──right──▸  q          p'  ──right──▸  m'  ──left──▸  q'

`right` was accepted in `m` and has to be accepted in `p'`.  What `left` has written by then are
marks of accesses, and marks are read at calls only (`Step.alikeOn`), so the constants among the
calls of the formula are the same in `m` as in `p`; this is the relation that is carried through
both walks (`binaryRule_exchanged_follows`).

Membership is left out, since what it asks of a column depends on the side the column is on.

Operands that change places twice are where they were (`Expr.exchange_exchange`), so one
direction is enough.
-/
import Delegability.Proofs.History
import Mathlib.Data.List.Perm.Basic

namespace Delegability

/-! ## Exchanging operands -/

namespace Expr

mutual

/-- The chosen operators, other than membership, have their operands change places; all else
stays as it is. -/
def exchange (chosen : NodeId → Bool) : Expr → Expr
  | .call id head args => .call id head (exchangeArgs chosen args)
  | .dotted id left right => .dotted id (left.exchange chosen) right
  | .binary id op left right =>
      if chosen id && !op.isMembership then
        .binary id op (right.exchange chosen) (left.exchange chosen)
      else .binary id op (left.exchange chosen) (right.exchange chosen)
  | .unary id op operand => .unary id op (operand.exchange chosen)
  | .first id name => .first id name
  | .literal id value => .literal id value
  | .other id description => .other id description

def exchangeArgs (chosen : NodeId → Bool) : List Expr → List Expr
  | [] => []
  | e :: es => e.exchange chosen :: exchangeArgs chosen es

end

variable {chosen : NodeId → Bool}

theorem exchangeArgs_eq_map (chosen : NodeId → Bool) : ∀ args : List Expr,
    exchangeArgs chosen args = args.map (exchange chosen)
  | [] => rfl
  | e :: es => by rw [exchangeArgs, List.map_cons, exchangeArgs_eq_map chosen es]

theorem exchange_binary_of_chosen {id : NodeId} {op : BinaryOp}
    (h : (chosen id && !op.isMembership) = true) (left right : Expr) :
    (Expr.binary id op left right).exchange chosen =
      .binary id op (right.exchange chosen) (left.exchange chosen) := by
  rw [exchange, if_pos h]

theorem exchange_binary_of_not_chosen {id : NodeId} {op : BinaryOp}
    (h : ¬ (chosen id && !op.isMembership) = true) (left right : Expr) :
    (Expr.binary id op left right).exchange chosen =
      .binary id op (left.exchange chosen) (right.exchange chosen) := by
  rw [exchange, if_neg h]

@[simp]
theorem id_exchange (chosen : NodeId → Bool) (e : Expr) : (e.exchange chosen).id = e.id := by
  cases e with
  | binary id op left right =>
      rw [exchange]
      split <;> rfl
  | call | dotted | first | unary | literal | other => rfl

theorem exchange_exchange (chosen : NodeId → Bool) (e : Expr) :
    (e.exchange chosen).exchange chosen = e := by
  induction e using Expr.ind with
  | call id head args ih =>
      rw [exchange, exchange, exchangeArgs_eq_map, exchangeArgs_eq_map, List.map_map]
      congr 1
      exact (List.map_congr_left ih).trans (List.map_id args)
  | dotted id left right ih => rw [exchange, exchange, ih]
  | binary id op left right ihl ihr =>
      by_cases h : (chosen id && !op.isMembership) = true
      · rw [exchange_binary_of_chosen h, exchange_binary_of_chosen h, ihl, ihr]
      · rw [exchange_binary_of_not_chosen h, exchange_binary_of_not_chosen h, ihl, ihr]
  | unary id op operand ih => rw [exchange, exchange, ih]
  | first | literal | other => rfl

/-- The nodes keep their identities. -/
theorem ids_exchange (chosen : NodeId → Bool) (e : Expr) :
    ((e.exchange chosen).postorder.map Expr.id).Perm (e.postorder.map Expr.id) := by
  induction e using Expr.ind with
  | call id head args ih =>
      rw [exchange, postorder, postorder, List.map_append, List.map_append]
      refine List.Perm.append ?_ (.refl _)
      rw [exchangeArgs_eq_map, postorderArgs_eq_flatMap, postorderArgs_eq_flatMap, List.flatMap_map,
        List.map_flatMap, List.map_flatMap]
      exact List.Perm.flatMap_left args ih
  | dotted id left right ih =>
      rw [exchange, postorder, postorder, List.map_append, List.map_append]
      exact ih.append (.refl _)
  | binary id op left right ihl ihr =>
      by_cases h : (chosen id && !op.isMembership) = true
      · rw [exchange_binary_of_chosen h, postorder, postorder]
        simp only [List.map_append]
        exact (List.perm_append_comm.trans (ihl.append ihr)).append (.refl _)
      · rw [exchange_binary_of_not_chosen h, postorder, postorder]
        simp only [List.map_append]
        exact (ihl.append ihr).append (.refl _)
  | unary id op operand ih =>
      rw [exchange, postorder, postorder, List.map_append, List.map_append]
      exact ih.append (.refl _)
  | first | literal | other => exact .refl _

theorem Distinct.exchange {e : Expr} (h : e.Distinct) (chosen : NodeId → Bool) :
    (e.exchange chosen).Distinct :=
  (ids_exchange chosen e).nodup_iff.mpr h

end Expr

theorem FactTable.columnPath?_exchange (t : FactTable) (chosen : NodeId → Bool) : ∀ e : Expr,
    t.columnPath? (e.exchange chosen) = t.columnPath? e
  | .dotted _ left _ => by
      rw [Expr.exchange, columnPath?, columnPath?, columnPath?_exchange t chosen left]
  | .binary _ _ _ _ => by
      rw [Expr.exchange]
      split <;> rfl
  | .call .. | .first .. | .unary .. | .literal .. | .other .. => rfl

namespace Scope

variable {s : Scope} {chosen : NodeId → Bool} {tree e left right : Expr} {id : NodeId}

/-! ## Accesses

An access sees of its left side the identity, the path and, where it is a name, the name. -/

theorem isOuterRecord_exchange (s : Scope) (chosen : NodeId → Bool) (e : Expr) :
    s.isOuterRecord (e.exchange chosen) = s.isOuterRecord e := by
  cases e with
  | binary id op left right =>
      rw [Expr.exchange]
      split <;> rfl
  | call | dotted | first | unary | literal | other => rfl

theorem accessSupports_exchange {right : Name} {need : Option CapabilitySet} :
    s.AccessSupports id (left.exchange chosen) right need ↔ s.AccessSupports id left right need := by
  have hpath : s.facts.columnPath? (.dotted id (left.exchange chosen) right) =
      s.facts.columnPath? (.dotted id left right) :=
    s.facts.columnPath?_exchange chosen (.dotted id left right)
  unfold AccessSupports
  rw [isOuterRecord_exchange, Expr.id_exchange, hpath]

theorem dottedRule_exchange {right : Name} {shape : Check Shape} {op : Option Strategy}
    {p q : Pass} :
    (s.dottedRule id (left.exchange chosen) right shape op).Accepts p q ↔
      (s.dottedRule id left right shape op).Accepts p q := by
  rw [dottedRule_accepts, dottedRule_accepts, accessRule_accepts, accessRule_accepts,
    accessSupports_exchange, Expr.id_exchange]

/-! ## Operators -/

theorem strategyAbove_of_not_membership {op : BinaryOp} (h : op.isMembership = false) :
    strategyAbove op true = strategyAbove op false := by
  unfold strategyAbove
  rw [h]
  rfl

/-- What is accepted leaves the marks of calls as they are. -/
theorem alikeOn_of_accepts (hd : tree.Distinct) (he : e ∈ tree.postorder) {op : Option Strategy}
    {p q : Pass} (h : ((s.judge e).verdict op).Accepts p q) : q.AlikeOn tree.HasCall p := by
  obtain ⟨v, m, hv, hs⟩ := (settled_of_mem he).verdict op p
  obtain ⟨-, rfl⟩ := h.det hv
  exact hs.alikeOn fun id => hd.not_hasCall

/-- The operator with its operands in the other places follows the operator. -/
theorem binaryRule_exchanged_follows (hd : tree.Distinct) (hleft : left ∈ tree.postorder)
    (hright : right ∈ tree.postorder) {op : BinaryOp} (hop : op.isMembership = false)
    {left' right' : Reading}
    (hl : (s.judge left).Follows (s.ConstantsWithin s tree.HasCall) left')
    (hr : (s.judge right).Follows (s.ConstantsWithin s tree.HasCall) right') :
    (s.binaryRule id op (s.judge left) (s.judge right)).Follows
      (s.ConstantsWithin s tree.HasCall) .delegable (s.binaryRule id op right' left') := by
  intro p p' q hR hacc
  obtain ⟨hpure, ht, hboth, m, hm, hq⟩ := binaryRule_accepts.mp hacc
  have hmp : m.AlikeOn tree.HasCall p := alikeOn_of_accepts hd hleft hm
  have hqm : q.AlikeOn tree.HasCall m := alikeOn_of_accepts hd hright hq
  -- `right` ran in `m`, and now runs in `p'`, where nothing has been written yet
  have hRmp : s.ConstantsWithin s tree.HasCall m p' := .trans (hmp.constantsWithin s) hR
  obtain ⟨m', hm', hRqm⟩ := hr.verdict (Or.inl rfl) m p' q hRmp hq
  -- `left` ran in `p`, and now runs after `right`
  have hRpm : s.ConstantsWithin s tree.HasCall p m' :=
    .trans ((hqm.trans hmp).symm.constantsWithin s) hRqm
  obtain ⟨q', hq', hRmq⟩ := hl.verdict (Or.inl rfl) p m' m hRpm hm
  rw [← strategyAbove_of_not_membership hop] at hm'
  rw [strategyAbove_of_not_membership hop] at hq'
  refine ⟨q', binaryRule_accepts.mpr ⟨hpure, ht, ?_, m', hm', hq'⟩,
    .trans (hqm.constantsWithin s) hRmq⟩
  rw [hl.id, hr.id]
  exact fun h => hboth ⟨h.1, h.2.2, h.2.1⟩

/-! ## Every formula -/

/-- Through all sub-expressions of a formula with distinct identities, the formula with exchanged
operands follows the formula. -/
theorem judge_follows_exchange (s : Scope) (chosen : NodeId → Bool) (hd : tree.Distinct) :
    e ∈ tree.postorder →
      (s.judge e).Follows (s.ConstantsWithin s tree.HasCall) (s.judge (e.exchange chosen)) := by
  have hw : s.Within s := .refl s
  induction e using Expr.ind with
  | call id head args ih =>
      intro he
      have hargs : (s.judgeArgs args).Forall₂
          (Reading.Follows (s.ConstantsWithin s tree.HasCall))
          (s.judgeArgs (Expr.exchangeArgs chosen args)) := by
        rw [judgeArgs_eq_map, judgeArgs_eq_map, Expr.exchangeArgs_eq_map, List.map_map,
          List.forall₂_map_left_iff, List.forall₂_map_right_iff, List.forall₂_same]
        exact fun a ha => ih a ha (Expr.mem_of_arg he ha)
      exact .of_call (hw.callRule_follows ⟨head, args, he⟩ hargs)
  | dotted id left right ih =>
      intro he
      have hleft := ih (Expr.mem_of_dotted he)
      refine ⟨rfl, fun hop p p' q hR hacc => ?_, hleft.exempted, hleft.resolvable⟩
      obtain ⟨q', hq', hRq⟩ :=
        hw.dottedRule_follows hop hleft.exempted hleft.resolvable p p' q hR hacc
      exact ⟨q', dottedRule_exchange.mpr hq', hRq⟩
  | binary id op left right ihl ihr =>
      intro he
      have hleft := Expr.mem_of_left he
      have hright := Expr.mem_of_right he
      by_cases h : (chosen id && !op.isMembership) = true
      · rw [Expr.exchange_binary_of_chosen h]
        have hop : op.isMembership = false := by simpa using (Bool.and_eq_true_iff.mp h).2
        exact .of_unsupported rfl (fun _ => hw.rowRule_follows
          (binaryRule_exchanged_follows hd hleft hright hop (ihl hleft) (ihr hright))) rfl
      · rw [Expr.exchange_binary_of_not_chosen h]
        exact .of_unsupported rfl (fun _ => hw.rowRule_follows
          (hw.binaryRule_follows (ihl hleft) (ihr hright))) rfl
  | unary id op operand ih =>
      intro he
      exact .of_unsupported rfl (fun _ => hw.rowRule_follows
        (hw.unaryRule_follows (ih (Expr.mem_of_operand he)))) rfl
  | first | literal | other => exact fun he => hw.judge_follows he

end Scope

namespace Session

variable {session : Session} {t : Tracker} {s : Scope} {root : Expr} {op : Option Strategy}

theorem Delegates.exchange (h : session.Delegates t s root op) (hd : root.Distinct)
    (chosen : NodeId → Bool) : session.Delegates t s (root.exchange chosen) op := by
  obtain ⟨hn, q, hq⟩ := delegates_iff.mp h
  have hfollows := s.judge_follows_exchange chosen hd (Expr.self_mem_postorder root)
  have hstart : s.ConstantsWithin s root.HasCall session.newPass session.newPass :=
    fun _ _ hc => hc
  obtain ⟨q', hq', -⟩ := hfollows.verdict (Or.inl rfl) _ _ q hstart hq
  exact delegates_iff.mpr ⟨hn, q', hq'⟩

theorem delegates_exchange_iff (hd : root.Distinct) (chosen : NodeId → Bool) :
    session.Delegates t s (root.exchange chosen) op ↔ session.Delegates t s root op := by
  refine ⟨fun h => ?_, fun h => h.exchange hd chosen⟩
  rw [← Expr.exchange_exchange chosen root]
  exact h.exchange (hd.exchange chosen) chosen

/-- A validation for a named function has an answer. -/
theorem exists_answer (session : Session) (t : Tracker) (root : Expr) (op : Option Strategy)
    (hn : s.function.name ≠ "") :
    ∃ b, (session.validate t s root op).map (·.1.delegable) = .ok b ∧
      (b = true ↔ session.Delegates t s root op) := by
  obtain ⟨v, q, hv, -⟩ := validateNode_once session s root op
  have hrun := validate_eq (t := t) hn hv
  refine ⟨v.isDelegable, by rw [hrun]; rfl, fun hb => ⟨_, _, hrun, hb⟩, ?_⟩
  rintro ⟨report, after, hrun', hdel⟩
  cases hrun.symm.trans hrun'
  exact hdel

/-- **Operand order**: over a formula whose nodes differ in identity, the answer of a validation
does not change when operands change places, wherever they do; and there is one for every
function that has a name. -/
theorem exchange_keeps_answer (session : Session) (t : Tracker) (s : Scope) (op : Option Strategy)
    (chosen : NodeId → Bool) (hd : root.Distinct) :
    (session.validate t s (root.exchange chosen) op).map (·.1.delegable) =
        (session.validate t s root op).map (·.1.delegable) ∧
      (s.function.name ≠ "" →
        ∃ b, (session.validate t s root op).map (·.1.delegable) = .ok b) := by
  by_cases hn : s.function.name = ""
  · exact ⟨by simp [validate, hn], fun h => absurd hn h⟩
  · obtain ⟨b, hb, hyes⟩ := session.exists_answer t root op hn
    obtain ⟨b', hb', hyes'⟩ := session.exists_answer t (root.exchange chosen) op hn
    have hbb : b' = b := by
      rw [Bool.eq_iff_iff, hyes, hyes', delegates_exchange_iff hd]
    exact ⟨by rw [hb, hb', hbb], fun _ => ⟨b, hb⟩⟩

end Session

/-! ## Exchanges in the sample

The access comes after the match instead of before it, and the literal before the column it is
compared with. -/

namespace Sample

def turned : Expr :=
  .binary 9 .and
    (.binary 6 .and (.binary 2 .equal (.literal 1 .null) (.first 0 name))
      (.call 5 matchHead [.first 3 city, .literal 4 (.str "a")]))
    access

theorem turned_keeps_answer :
    marking.Distinct ∧ marking.exchange (fun id => id = 9 || id = 2) = turned ∧
      (({} : Session).validate silent ⟨.filter, markingFacts, facet⟩ marking none).map
        (·.1.delegable) = .ok true ∧
      (({} : Session).validate silent ⟨.filter, markingFacts, facet⟩ turned none).map
        (·.1.delegable) = .ok true := by
  have hd : marking.Distinct := by decide
  have hrun : (({} : Session).validate silent ⟨.filter, markingFacts, facet⟩ marking none).map
      (·.1.delegable) = .ok true := rfl
  have hturned : marking.exchange (fun id => id = 9 || id = 2) = turned := rfl
  refine ⟨hd, hturned, hrun, ?_⟩
  rw [← hturned, (Session.exchange_keeps_answer {} silent _ none _ hd).1]
  exact hrun

end Sample

end Delegability

/-
# `Delegability.Proofs.Success` — computations that came through

Loading and decoding are sequences of steps each of which may fail.  When the whole has come
through, so has every step; these lemmas take the steps out one by one, and put them together
again.  When it has not, the first step that failed says why, and those before it came through.
-/
import Mathlib.Data.List.Forall2

namespace Delegability.Success

variable {ε ε' α β : Type}

theorem map_eq_ok {x : Except ε α} {f : α → β} {b : β} :
    x.map f = .ok b ↔ ∃ a, x = .ok a ∧ f a = b := by
  cases x with
  | error e => simp [Except.map]
  | ok a => simp [Except.map]

theorem mapError_eq_ok {x : Except ε α} {f : ε → ε'} {a : α} :
    x.mapError f = .ok a ↔ x = .ok a := by
  cases x with
  | error e => simp [Except.mapError]
  | ok a => simp [Except.mapError]

theorem bind_eq_ok {x : Except ε α} {f : α → Except ε β} {b : β} :
    x >>= f = .ok b ↔ ∃ a, x = .ok a ∧ f a = .ok b := by
  cases x with
  | error e => simp [Bind.bind, Except.bind]
  | ok a => simp [Bind.bind, Except.bind]

theorem map_eq_error {x : Except ε α} {f : α → β} {e : ε} :
    x.map f = .error e ↔ x = .error e := by
  cases x with
  | error e' => simp [Except.map]
  | ok a => simp [Except.map]

theorem mapError_eq_error {x : Except ε α} {f : ε → ε'} {e' : ε'} :
    x.mapError f = .error e' ↔ ∃ e, x = .error e ∧ f e = e' := by
  cases x with
  | error e => simp [Except.mapError]
  | ok a => simp [Except.mapError]

theorem bind_eq_error {x : Except ε α} {f : α → Except ε β} {e : ε} :
    x >>= f = .error e ↔ x = .error e ∨ ∃ a, x = .ok a ∧ f a = .error e := by
  cases x with
  | error e' => simp [Bind.bind, Except.bind]
  | ok a => simp [Bind.bind, Except.bind]

/-- A list comes through if each of its items does. -/
theorem mapM_eq_ok {f : α → Except ε β} {as : List α} {bs : List β} :
    as.mapM f = .ok bs ↔ List.Forall₂ (fun a b => f a = .ok b) as bs := by
  induction as generalizing bs with
  | nil =>
      rw [List.mapM_nil, List.forall₂_nil_left_iff]
      exact ⟨fun h => (Except.ok.inj h).symm, fun h => h ▸ rfl⟩
  | cons a as ih =>
      rw [List.mapM_cons, List.forall₂_cons_left_iff, bind_eq_ok]
      simp only [bind_eq_ok, ih]
      constructor
      · rintro ⟨b, hb, bs', hbs, ⟨⟩⟩
        exact ⟨b, bs', hb, hbs, rfl⟩
      · rintro ⟨b, bs', hb, hbs, rfl⟩
        exact ⟨b, hb, bs', hbs, rfl⟩

theorem exists_mapM_eq_ok {f : α → Except ε β} {as : List α} (h : ∀ a ∈ as, ∃ b, f a = .ok b) :
    ∃ bs, as.mapM f = .ok bs := by
  simp only [mapM_eq_ok]
  induction as with
  | nil => exact ⟨[], .nil⟩
  | cons a as ih =>
      obtain ⟨b, hb⟩ := h a List.mem_cons_self
      obtain ⟨bs, hbs⟩ := ih fun x hx => h x (List.mem_cons_of_mem a hx)
      exact ⟨b :: bs, .cons hb hbs⟩

/-- What is taken back item by item is taken back as a list. -/
theorem mapM_map_eq_ok {f : α → Except ε β} {g : β → α} {bs : List β}
    (h : ∀ b ∈ bs, f (g b) = .ok b) : (bs.map g).mapM f = .ok bs := by
  rw [mapM_eq_ok, List.forall₂_map_left_iff, List.forall₂_same]
  exact h

theorem map_of_mapM {f : α → Except ε β} {g : β → α} {as : List α} {bs : List β}
    (h : as.mapM f = .ok bs) (hg : ∀ a b, f a = .ok b → g b = a) : bs.map g = as := by
  have heq : List.Forall₂ (fun b a => g b = a) bs as :=
    ((mapM_eq_ok.mp h).imp hg).flip
  rwa [← List.forall₂_map_left_iff (f := g), List.forall₂_eq_eq_eq] at heq

theorem forall_mem_of_mapM {f : α → Except ε β} {as : List α} {bs : List β} {P : β → Prop}
    (h : as.mapM f = .ok bs) (hP : ∀ a b, f a = .ok b → P b) : ∀ b ∈ bs, P b := by
  have hall : List.Forall₂ (fun _ b => P b) as bs := (mapM_eq_ok.mp h).imp hP
  clear h
  induction hall with
  | nil => exact fun b hb => absurd hb List.not_mem_nil
  | cons hb _ ih => exact List.forall_mem_cons.mpr ⟨hb, ih⟩

/-- A sequence of steps fails as the first step that fails, from where the steps before it led. -/
theorem foldlM_eq_error {f : β → α → Except ε β} {as : List α} {b : β} {e : ε} :
    as.foldlM f b = .error e ↔ ∃ before a after b', as = before ++ a :: after ∧
      before.foldlM f b = .ok b' ∧ f b' a = .error e := by
  constructor
  · intro h
    induction as generalizing b with
    | nil => cases h
    | cons a as ih =>
        rw [List.foldlM_cons] at h
        cases ha : f b a with
        | error e' =>
            rw [ha] at h
            cases Except.error.inj h
            exact ⟨[], a, as, b, rfl, rfl, ha⟩
        | ok b₁ =>
            rw [ha] at h
            obtain ⟨before, x, after, b', rfl, hbefore, hx⟩ := ih h
            refine ⟨a :: before, x, after, b', rfl, ?_, hx⟩
            rw [List.foldlM_cons, ha]
            exact hbefore
  · rintro ⟨before, a, after, b', rfl, hbefore, ha⟩
    rw [List.foldlM_append, hbefore]
    show (a :: after).foldlM f b' = .error e
    rw [List.foldlM_cons, ha]
    rfl

theorem length_of_mapM {f : α → Except ε β} {as : List α} {bs : List β}
    (h : as.mapM f = .ok bs) : bs.length = as.length :=
  (mapM_eq_ok.mp h).length_eq.symm

theorem exists_getElem?_of_forall₂ {R : α → β → Prop} {as : List α} {bs : List β}
    (h : List.Forall₂ R as bs) {i : Nat} {a : α} (ha : as[i]? = some a) :
    ∃ b, bs[i]? = some b ∧ R a b := by
  obtain ⟨hi, rfl⟩ := List.getElem?_eq_some_iff.mp ha
  have hi' : i < bs.length := h.length_eq ▸ hi
  exact ⟨bs[i], List.getElem?_eq_getElem hi', h.get hi hi'⟩

end Delegability.Success

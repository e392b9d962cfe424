import Mathlib.Data.List.Forall2

/-!
# Steps that may fail

What is known of the results when steps that may fail come one after another and none of them
failed.

* `exists_of_bind_eq_ok`: two steps in a row.
* `Gives`: what the result of a step is like if there is one.  `Gives.bind`, `Gives.map`,
  `Gives.foldlM` and `Gives.mapM` lead from the steps to what they make together.
* `mapM_eq_ok_iff`: a step for each member of a list, none with a look at the others.
-/

namespace ReleaseTrain

variable {ε α β : Type}

/-- Two steps in a row give a result if the first one does and the second one does with it. -/
theorem exists_of_bind_eq_ok {e : Except ε α} {next : α → Except ε β} {b : β}
    (h : (e >>= next) = .ok b) : ∃ a, e = .ok a ∧ next a = .ok b := by
  cases e with
  | error f => cases h
  | ok a => exact ⟨a, rfl, h⟩

/-- What the result of a step is like if there is one. -/
def Gives (P : α → Prop) (e : Except ε α) : Prop := ∀ a, e = .ok a → P a

namespace Gives

variable {P : α → Prop} {Q : β → Prop} {e : Except ε α}

theorem ok {a : α} (h : P a) : Gives P (.ok a : Except ε α) := fun _ ha => Except.ok.inj ha ▸ h

theorem error {f : ε} : Gives P (.error f : Except ε α) := nofun

theorem anything : Gives (fun _ => True) e := fun _ _ => trivial

theorem bind {next : α → Except ε β} (h : Gives P e) (hnext : ∀ a, P a → Gives Q (next a)) :
    Gives Q (e >>= next) := by
  intro b hb
  obtain ⟨a, ha, hnext'⟩ := exists_of_bind_eq_ok hb
  exact hnext a (h a ha) b hnext'

theorem map {f : α → β} (h : Gives P e) (hf : ∀ a, P a → Q (f a)) : Gives Q (e.map f) := by
  cases e with
  | error f => exact error
  | ok a => exact ok (hf a (h a rfl))

theorem mapError {ε' : Type} {f : ε → ε'} (h : Gives P e) : Gives P (e.mapError f) := by
  cases e with
  | error e => exact error
  | ok a => exact ok (h a rfl)

/-- What holds at the start and is kept by every step holds in the end. -/
theorem foldlM {f : β → α → Except ε β} {l : List α} {start : β} (hstart : Q start)
    (hstep : ∀ a ∈ l, ∀ b, Q b → Gives Q (f b a)) : Gives Q (l.foldlM f start) := by
  induction l generalizing start with
  | nil => exact ok hstart
  | cons a rest ih =>
    obtain ⟨ha, hrest⟩ := List.forall_mem_cons.mp hstep
    rw [List.foldlM_cons]
    exact bind (ha start hstart) fun b hb => ih hb hrest

theorem mapM {f : α → Except ε β} {l : List α} (h : ∀ a ∈ l, Gives Q (f a)) :
    Gives (fun found => ∀ b ∈ found, Q b) (l.mapM f) := by
  induction l with
  | nil => exact ok (List.forall_mem_nil _)
  | cons a rest ih =>
    obtain ⟨ha, hrest⟩ := List.forall_mem_cons.mp h
    rw [List.mapM_cons]
    exact bind ha fun b hb => bind (ih hrest) fun bs hbs =>
      ok (List.forall_mem_cons.mpr ⟨hb, hbs⟩)

end Gives

/-- A step for each member succeeds with the results that the steps have one by one. -/
theorem mapM_eq_ok_iff {f : α → Except ε β} {l : List α} {found : List β} :
    l.mapM f = .ok found ↔ List.Forall₂ (fun a b => f a = .ok b) l found := by
  induction l generalizing found with
  | nil =>
    rw [List.forall₂_nil_left_iff]
    exact ⟨fun h => (Except.ok.inj h).symm, fun h => h ▸ rfl⟩
  | cons a rest ih =>
    rw [List.mapM_cons, List.forall₂_cons_left_iff]
    constructor
    · intro h
      obtain ⟨b, hb, h⟩ := exists_of_bind_eq_ok h
      obtain ⟨bs, hbs, h⟩ := exists_of_bind_eq_ok h
      exact ⟨b, bs, hb, ih.mp hbs, (Except.ok.inj h).symm⟩
    · rintro ⟨b, bs, hb, hbs, rfl⟩
      rw [hb, ih.mpr hbs]
      rfl

theorem mapM_congr {f g : α → Except ε β} {l : List α} (h : ∀ a ∈ l, f a = g a) :
    l.mapM f = l.mapM g := by
  induction l with
  | nil => rfl
  | cons a rest ih =>
    obtain ⟨ha, hrest⟩ := List.forall_mem_cons.mp h
    rw [List.mapM_cons, List.mapM_cons, ha, ih hrest]

end ReleaseTrain

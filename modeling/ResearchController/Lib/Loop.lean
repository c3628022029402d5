import Mathlib

/-!
# Loops that can raise

Rules for computations in `Except ε` and for the two shapes a loop over a list takes in a program
with transactions:

* `List.foldlM` in `Except ε` is the loop inside one transaction: an exception in any iteration
  loses the effects of all of them. `visit` is an iteration that picks its elements by a test of the
  state; `Isolated` collects what makes the iterations of such a loop independent of each other, up
  to the exceptions;
* `commitEach` is the loop whose iterations are transactions of their own: an exception ends the
  loop and keeps what the earlier iterations committed.
-/

namespace ResearchController.Lib

variable {σ α ε : Type}

/-- A sequence of two computations returns when both do. -/
lemma bind_ok {ε α β : Type} {x : Except ε α} {f : α → Except ε β} {b : β} :
    (x >>= f) = .ok b ↔ ∃ a, x = .ok a ∧ f a = .ok b := by
  cases x with
  | error e =>
    constructor
    · intro h
      cases h
    · rintro ⟨a, h, _⟩
      cases h
  | ok a =>
    refine ⟨fun h => ⟨a, rfl, h⟩, ?_⟩
    rintro ⟨a', e, h⟩
    cases e
    exact h

/-- A sequence returns if its first part does and its rest does from there. -/
lemma bind_total {ε α β : Type} {x : Except ε α} {f : α → Except ε β} {a : α} (hx : x = .ok a)
    (rest : ∃ b, f a = .ok b) : ∃ b, (x >>= f) = .ok b := by
  obtain ⟨b, hb⟩ := rest
  exact ⟨b, bind_ok.mpr ⟨a, hx, hb⟩⟩

/-- A computation followed by a pure function of its result returns whenever it does. -/
lemma bind_pure_total_iff {ε α β : Type} {x : Except ε α} {f : α → β} :
    (∃ b, (x >>= fun a => pure (f a)) = .ok b) ↔ ∃ a, x = .ok a := by
  constructor
  · rintro ⟨b, h⟩
    obtain ⟨a, hx, _⟩ := bind_ok.mp h
    exact ⟨a, hx⟩
  · rintro ⟨a, hx⟩
    exact bind_total hx ⟨f a, rfl⟩

/-- What a computation returns, read off its optional result. -/
lemma ok_of_toOption {ε α : Type} {x : Except ε α} {a : α} (h : x.toOption = some a) :
    x = .ok a := by
  cases x with
  | error e => cases h
  | ok b => exact congrArg Except.ok (Option.some.inj h)

/-- The loop inside one transaction returns when its first iteration and the rest do. -/
lemma foldlM_cons_ok {f : σ → α → Except ε σ} {s s' : σ} {a : α} {as : List α} :
    (a :: as).foldlM f s = .ok s' ↔ ∃ t, f s a = .ok t ∧ as.foldlM f t = .ok s' := by
  rw [List.foldlM_cons, bind_ok]

/-- A predicate that every returning iteration keeps holds after the loop. -/
lemma foldlM_invariant {f : σ → α → Except ε σ} {P : σ → Prop} {as : List α} {s s' : σ}
    (step : ∀ t a t', a ∈ as → P t → f t a = .ok t' → P t')
    (h : as.foldlM f s = .ok s') (hs : P s) : P s' := by
  induction as generalizing s with
  | nil => cases h; exact hs
  | cons a as ih =>
    obtain ⟨t, ht, h⟩ := foldlM_cons_ok.mp h
    have pt := step s a t (by simp) hs ht
    exact ih (fun u b u' mem => step u b u' (by simp [mem])) h pt

/-- If every returning iteration is a sequence of moves, so is the loop. -/
lemma foldlM_moves {A : Type*} {M : A → A → Prop} (g : σ → A) {f : σ → α → Except ε σ}
    {as : List α} {s s' : σ}
    (step : ∀ t a t', a ∈ as → f t a = .ok t' → Relation.ReflTransGen M (g t) (g t'))
    (h : as.foldlM f s = .ok s') : Relation.ReflTransGen M (g s) (g s') := by
  induction as generalizing s with
  | nil => cases h; exact .refl
  | cons a as ih =>
    obtain ⟨t, ht, h⟩ := foldlM_cons_ok.mp h
    have first := step s a t (by simp) ht
    exact first.trans (ih (fun u b u' mem => step u b u' (by simp [mem])) h)

/-- An iteration that acts on an element if it passes a test, and lists the elements it acted on. -/
def visit (test : σ → α → Bool) (act : σ → α → Except ε σ) (s : List α × σ) (a : α) :
    Except ε (List α × σ) :=
  if test s.2 a then do
    let t ← act s.2 a
    return (s.1 ++ [a], t)
  else
    return s

/-- If acting changes no test, the loop acts on the elements that pass the test before it, whatever
    it did in between. -/
lemma foldlM_visit {test : σ → α → Bool} {act : σ → α → Except ε σ}
    (stable : ∀ s a t, act s a = .ok t → test t = test s) (as : List α) (out : List α) (s : σ) :
    as.foldlM (visit test act) (out, s) =
      ((as.filter (test s)).foldlM act s).map fun t => (out ++ as.filter (test s), t) := by
  induction as generalizing out s with
  | nil =>
    show Except.ok (out, s) = Except.ok (out ++ [], s)
    rw [List.append_nil]
  | cons a as ih =>
    rw [List.foldlM_cons]
    cases passes : test s a with
    | false =>
      have skipped : visit test act (out, s) a = .ok (out, s) := by
        simp only [visit, passes, Bool.false_eq_true, if_false]
        rfl
      rw [skipped, List.filter_cons_of_neg (by simp [passes])]
      exact ih out s
    | true =>
      rw [List.filter_cons_of_pos passes, List.foldlM_cons]
      cases acted : act s a with
      | error e =>
        have raised : visit test act (out, s) a = .error e := by
          simp only [visit, passes, if_true, acted]
          rfl
        rw [raised]
        rfl
      | ok t =>
        have listed : visit test act (out, s) a = .ok (out ++ [a], t) := by
          simp only [visit, passes, if_true, acted]
          rfl
        have rest := ih (out ++ [a]) t
        rw [List.append_assoc] at rest
        rw [listed, ← stable s a t acted]
        exact rest

/-- An iteration that works on its own part of the state. `Same a s t` says that the part of `a` is
    the same in both states. -/
structure Isolated (f : σ → α → Except ε σ) (P : σ → Prop) (Same : α → σ → σ → Prop) : Prop where
  refl : ∀ (a : α) (s : σ), Same a s s
  symm : ∀ {a s t}, Same a s t → Same a t s
  trans : ∀ {a s t u}, Same a s t → Same a t u → Same a s u
  keeps : ∀ {s a s'}, P s → f s a = .ok s' → P s'
  frame : ∀ {s a s' b}, P s → f s a = .ok s' → b ≠ a → Same b s s'
  own : ∀ {s t a}, P s → P t → Same a s t → (∃ s', f s a = .ok s') → ∃ t', f t a = .ok t'

namespace Isolated

variable {f : σ → α → Except ε σ} {P : σ → Prop} {Same : α → σ → σ → Prop}

/-- The loop leaves the part of an element that is not in the list alone. -/
lemma loop_frame (iso : Isolated f P Same) {as : List α} {s s' : σ} {b : α} (hs : P s)
    (h : as.foldlM f s = .ok s') (absent : b ∉ as) : Same b s s' := by
  induction as generalizing s with
  | nil =>
    cases h
    exact iso.refl b _
  | cons a as ih =>
    obtain ⟨t, ht, h⟩ := foldlM_cons_ok.mp h
    obtain ⟨ne, absent⟩ := not_or.mp (mt List.mem_cons.mpr absent)
    have first := iso.frame hs ht ne
    have others := ih (iso.keeps hs ht) h absent
    exact iso.trans first others

/-- Each element of the list is processed on its own part as it was before the loop, and what that
    iteration leaves is there after the loop. -/
lemma loop_result (iso : Isolated f P Same) {as : List α} {s s' : σ} (nd : as.Nodup) (hs : P s)
    (h : as.foldlM f s = .ok s') {b : α} (mem : b ∈ as) :
    ∃ t t', P t ∧ Same b s t ∧ f t b = .ok t' ∧ Same b t' s' := by
  induction as generalizing s with
  | nil => cases mem
  | cons a as ih =>
    obtain ⟨t, ht, rest⟩ := foldlM_cons_ok.mp h
    obtain ⟨notin, nd⟩ := List.nodup_cons.mp nd
    have pt := iso.keeps hs ht
    rcases List.mem_cons.mp mem with e | later
    · subst e
      exact ⟨s, t, hs, iso.refl b s, ht, iso.loop_frame pt rest notin⟩
    · have ne : b ≠ a := ne_of_mem_of_not_mem later notin
      obtain ⟨u, u', pu, before, hu, after⟩ := ih nd pt rest later
      exact ⟨u, u', pu, iso.trans (iso.frame hs ht ne) before, hu, after⟩

/-- The loop over distinct elements returns exactly when every iteration would have returned from
    the state before the loop. -/
lemma loop_total_iff (iso : Isolated f P Same) {as : List α} {s : σ} (nd : as.Nodup) (hs : P s) :
    (∃ s', as.foldlM f s = .ok s') ↔ ∀ a ∈ as, ∃ s', f s a = .ok s' := by
  constructor
  · rintro ⟨s', h⟩ a mem
    obtain ⟨t, t', pt, before, ht, _⟩ := iso.loop_result nd hs h mem
    exact iso.own pt hs (iso.symm before) ⟨t', ht⟩
  · intro each
    induction as generalizing s with
    | nil => exact ⟨s, rfl⟩
    | cons a as ih =>
      obtain ⟨notin, nd⟩ := List.nodup_cons.mp nd
      obtain ⟨t, ht⟩ := each a List.mem_cons_self
      have pt := iso.keeps hs ht
      have rest : ∀ b ∈ as, ∃ t', f t b = .ok t' := by
        intro b mem
        have ne : b ≠ a := ne_of_mem_of_not_mem mem notin
        exact iso.own hs pt (iso.frame hs ht ne) (each b (List.mem_cons_of_mem a mem))
      obtain ⟨s', h⟩ := ih nd pt rest
      exact ⟨s', foldlM_cons_ok.mpr ⟨t, ht, h⟩⟩

end Isolated

/-- The loop whose iterations commit one by one, with the exception that ended it, if any. -/
def commitEach (step : σ → α → Except ε σ) : σ → List α → σ × Option ε
  | s, [] => (s, none)
  | s, a :: as =>
    match step s a with
    | .ok s' => commitEach step s' as
    | .error e => (s, some e)

lemma commitEach_cons_ok {step : σ → α → Except ε σ} {s t : σ} {a : α} (as : List α)
    (h : step s a = .ok t) : commitEach step s (a :: as) = commitEach step t as := by
  simp only [commitEach, h]

lemma commitEach_cons_error {step : σ → α → Except ε σ} {s : σ} {a : α} {e : ε} (as : List α)
    (h : step s a = .error e) : commitEach step s (a :: as) = (s, some e) := by
  simp only [commitEach, h]

/-- A predicate that every returning iteration keeps holds after the loop, whether it was cut short
    or not. -/
lemma commitEach_invariant {step : σ → α → Except ε σ} {P : σ → Prop} {as : List α} {s : σ}
    (keeps : ∀ t a t', a ∈ as → P t → step t a = .ok t' → P t') (hs : P s) :
    P (commitEach step s as).1 := by
  induction as generalizing s with
  | nil => exact hs
  | cons a as ih =>
    have later : ∀ t b t', b ∈ as → P t → step t b = .ok t' → P t' :=
      fun t b t' mem => keeps t b t' (List.mem_cons_of_mem a mem)
    cases h : step s a with
    | error e =>
      rw [commitEach_cons_error as h]
      exact hs
    | ok t =>
      rw [commitEach_cons_ok as h]
      exact ih later (keeps s a t List.mem_cons_self hs h)

end ResearchController.Lib

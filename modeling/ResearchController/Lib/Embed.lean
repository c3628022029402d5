import ResearchController.Lib.Pool

/-!
# Programs as parts of other programs

A program over some effects is a program over more effects. `Program.embed` renames every effect and
reads the old answer off the new one; it commutes with composition. What a program upholds on one
world it upholds as a part of another program on a larger world (`Program.Upholds.embed`), and one
assertion is enough for a program if the others do not break it and every effect keeps the guarantee
under it (`Program.Upholds.within`).
-/

namespace ResearchController.Lib

variable {σ σ' E E' : Type} {R : E → Type} {R' : E' → Type} {O O' W W' ε α β : Type}

/-- A program over more effects. -/
def Program.embed (f : E → E') (answer : ∀ e, R' (f e) → R e) :
    Program E R ε α → Program E' R' ε α
  | .ret a => .ret a
  | .raise e => .raise e
  | .perform e next => .perform (f e) fun r => (next (answer e r)).embed f answer

section Embed

variable {f : E → E'} {answer : ∀ e, R' (f e) → R e}

lemma Program.embed_bind (p : Program E R ε α) (g : α → Program E R ε β) :
    (p >>= g).embed f answer = p.embed f answer >>= fun a => (g a).embed f answer := by
  induction p with
  | ret a => rfl
  | raise e => rfl
  | perform e next ih => exact congrArg (Program.perform (f e)) (funext fun r => ih (answer e r))

/-- The effects of an embedded program are embedded effects. -/
lemma Program.Within.embed {K : E' → Prop} (inside : ∀ e, K (f e)) (p : Program E R ε α) :
    (p.embed f answer).Within K := by
  induction p with
  | ret a => trivial
  | raise e => trivial
  | perform e next ih => exact ⟨inside e, fun r => ih (answer e r)⟩

/-- A part of a larger world upholds what it upholds alone, if the larger machine treats the part as
    its own machine does, and rely and guarantee agree on it. -/
lemma Program.Upholds.embed {m : Machine σ E R O W} {m' : Machine σ' E' R' O' W'}
    {rely guar : σ → σ → Prop} {rely' guar' : σ' → σ' → Prop} (part : σ' → σ) (hear : O' → O)
    (world : ∀ s e o, part (m'.handle s (f e) o).1 = (m.handle (part s) e (hear o)).1)
    (answers : ∀ s e o, answer e (m'.handle s (f e) o).2 = (m.handle (part s) e (hear o)).2)
    (relies : ∀ s t, rely' s t → rely (part s) (part t))
    (guards : ∀ s e o, guar (part s) (m.handle (part s) e (hear o)).1 →
      guar' s (m'.handle s (f e) o).1)
    {Q : Except ε α → σ → Prop} {p : Program E R ε α} {s : σ'}
    (h : p.Upholds m rely guar Q (part s)) :
    (p.embed f answer).Upholds m' rely' guar' (fun r t => Q r (part t)) s := by
  induction p generalizing s with
  | ret a => exact h
  | raise e => exact h
  | perform e next ih =>
    obtain ⟨P, hs, stable, step⟩ := h
    refine ⟨fun t => P (part t), hs, fun t t' ht r => stable _ _ ht (relies t t' r), ?_⟩
    intro t ht o
    obtain ⟨guarded, continues⟩ := step (part t) ht (hear o)
    refine ⟨guards t e o guarded, ih _ ?_⟩
    rw [answers, world]
    exact continues

end Embed

/-- One effect of a program. -/
lemma Program.Within.call {K : E → Prop} {e : E} (inside : K e) {f : R e → Program E R ε α}
    (continues : ∀ r, (f r).Within K) : (Program.call e >>= f).Within K :=
  ⟨inside, continues⟩

/-- A program whose effects all keep the guarantee in the worlds that a stable assertion describes.
    The assertion holds at the end. -/
lemma Program.Upholds.within {m : Machine σ E R O W} {rely guar : σ → σ → Prop} {K : E → Prop}
    {F : σ → Prop} (stable : ∀ t t', F t → rely t t' → F t')
    (guar_rely : ∀ {t t'}, guar t t' → rely t t')
    (guards : ∀ e, K e → ∀ s o, F s → guar s (m.handle s e o).1) {p : Program E R ε α}
    (inside : p.Within K) {s : σ} (hs : F s) : p.Upholds m rely guar (fun _ s => F s) s := by
  induction p generalizing s with
  | ret a => exact hs
  | raise e => exact hs
  | perform e next ih =>
    refine ⟨F, hs, stable, fun t ht o => ?_⟩
    have guarded := guards e inside.1 t o ht
    exact ⟨guarded, ih _ (inside.2 _) (stable _ _ ht (guar_rely guarded))⟩

end ResearchController.Lib

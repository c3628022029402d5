import ResearchController.Lib.Embed

/-!
# From one assertion to another

Where processes rely on each other for the same relation that they uphold themselves, a program that
returns leads from an assertion to another one if each of its parts does (`Program.Leads`). Parts
that have no business with an assertion keep it, as long as the relation keeps it
(`Program.Leads.keeps`), so the rules ask for the one part that matters.
-/

namespace ResearchController.Lib

variable {σ σ' E E' : Type} {R : E → Type} {R' : E' → Type} {O O' W W' ε α β : Type}

/-- The relation does not break an assertion. -/
def Keeps (rel : σ → σ → Prop) (F : σ → Prop) : Prop :=
  ∀ s t, F s → rel s t → F t

/-- Among processes that change the world as the relation says, the program does so too, and if it
    returns it leads from one assertion to another. -/
def Program.Leads (m : Machine σ E R O W) (rel : σ → σ → Prop) (F G : σ → Prop)
    (p : Program E R ε α) : Prop :=
  ∀ s, F s → p.Upholds m rel rel (fun r t => ∀ a, r = .ok a → G t) s

namespace Program.Leads

variable {m : Machine σ E R O W} {rel : σ → σ → Prop} {F G H : σ → Prop}

/-- A part without business keeps what the relation keeps. -/
lemma keeps (stable : Keeps rel F) {p : Program E R ε α}
    (upholds : ∀ s, F s → p.Upholds m rel rel (fun _ _ => True) s) : p.Leads m rel F F := by
  intro s hs
  have steady := (upholds s hs).steady stable id hs
  exact steady.mono fun _ _ both _ _ => both.2

/-- A part whose effects have no business. -/
lemma within {K : E → Prop} (stable : Keeps rel F)
    (guards : ∀ e, K e → ∀ s o, F s → rel s (m.handle s e o).1) {p : Program E R ε α}
    (inside : p.Within K) : p.Leads m rel F F := by
  intro s hs
  have upholds := Program.Upholds.within stable id guards inside hs
  exact upholds.mono fun _ _ holds _ _ => holds

lemma ret (F : σ → Prop) (a : α) : (pure a : Program E R ε α).Leads m rel F F :=
  fun _ hs _ _ => hs

/-- A program that raises leads anywhere. -/
lemma raise (F G : σ → Prop) (e : ε) : (.raise e : Program E R ε α).Leads m rel F G := by
  intro s _ a returns
  cases returns

lemma bind {p : Program E R ε α} {f : α → Program E R ε β} (first : p.Leads m rel F G)
    (rest : ∀ a, (f a).Leads m rel G H) : (p >>= f).Leads m rel F H := by
  intro s hs
  apply (first s hs).bind
  · intro a t reached
    exact rest a t (reached a rfl)
  · intro e t _ a returns
    cases returns

/-- What is known of the answer of an effect. -/
lemma call {e : E} {f : R e → Program E R ε α} (stable : Keeps rel F)
    (guards : ∀ s o, F s → rel s (m.handle s e o).1)
    (rest : ∀ s o, F s → (f (m.handle s e o).2).Upholds m rel rel
      (fun r t => ∀ a, r = .ok a → G t) (m.handle s e o).1) :
    (Program.call e >>= f).Leads m rel F G :=
  fun _ hs => Program.Upholds.call F hs stable (fun s o holds => guards s o holds) rest

/-- A value that is taken. -/
lemma check {x : Except ε α} {f : α → Program E R ε β}
    (rest : ∀ a, x = .ok a → (f a).Leads m rel F G) :
    (Program.check x >>= f).Leads m rel F G := by
  intro s hs
  apply Program.Upholds.check
  · exact fun a eq => rest a eq s hs
  · intro e _ a returns
    cases returns

/-- The end of a transaction that leads to an assertion if it has committed. -/
lemma committed {rel' : σ → σ → Prop} {x : Except ε α} {s : σ} (commits : ∀ a, x = .ok a → G s) :
    (Program.check x : Program E R ε α).Upholds m rel rel' (fun r t => ∀ a, r = .ok a → G t) s := by
  cases x with
  | ok a => exact fun _ _ => commits a rfl
  | error e =>
    intro a returns
    cases returns

/-- A part of a larger world leads where it leads alone. -/
lemma embed {f : E → E'} {answer : ∀ e, R' (f e) → R e} {m' : Machine σ' E' R' O' W'}
    {rel' : σ' → σ' → Prop} (part : σ' → σ) (hear : O' → O)
    (world : ∀ s e o, part (m'.handle s (f e) o).1 = (m.handle (part s) e (hear o)).1)
    (answers : ∀ s e o, answer e (m'.handle s (f e) o).2 = (m.handle (part s) e (hear o)).2)
    (relates : ∀ s t, rel' s t ↔ rel (part s) (part t)) {p : Program E R ε α}
    (leads : p.Leads m rel F G) :
    (p.embed f answer).Leads m' rel' (fun s => F (part s)) fun s => G (part s) := by
  intro s hs
  refine (leads (part s) hs).embed part hear world answers ?_ ?_
  · exact fun s t => (relates s t).mp
  · intro s e o guarded
    apply (relates _ _).mpr
    rw [world]
    exact guarded

end Program.Leads

end ResearchController.Lib

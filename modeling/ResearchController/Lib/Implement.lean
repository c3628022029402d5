import ResearchController.Lib.Pool

/-!
# Effects that are programs themselves

`Program.implement` replaces every effect of a program by a program over the effects of a lower
machine. Between the steps of one such body come the steps of all other processes, so a body stands
for an effect only if exactly one of its steps takes effect (`Layer.Performs`) and all its other
steps are not seen above (`Layer.Quiet`). Both are weakest preconditions in the style of rely and
guarantee. `Machine.pool_implements` takes the bodies to whole runs: a run of several processes on
the lower machine, with crashes anywhere, is a run of the same programs on the upper one.

A body may raise at any time. Above, the process that does crashes.
-/

namespace ResearchController.Lib

variable {σ τ E F : Type} {R : E → Type} {S : F → Type} {O O' W W' ε α β A ι : Type}

/-- A program over the bodies of its effects. -/
def Program.implement (body : ∀ e, Program F S ε (R e)) : Program E R ε α → Program F S ε α
  | .ret a => .ret a
  | .raise e => .raise e
  | .perform e next => body e >>= fun r => (next r).implement body

lemma Program.bind_assoc (p : Program E R ε α) (f : α → Program E R ε β)
    {γ : Type} (g : β → Program E R ε γ) : (p >>= f >>= g) = p >>= fun a => f a >>= g := by
  induction p with
  | ret a => rfl
  | raise e => rfl
  | perform e next ih => exact congrArg (Program.perform e) (funext ih)

/-- The calls that are started, in their order. -/
def startedCalls (events : List (ι × RunEvent A O W)) : List (ι × A) :=
  events.filterMap fun ev =>
    match ev.2 with
    | .start a => some (ev.1, a)
    | _ => none

/-- How the worlds of a lower machine stand for those of an upper one, and what each process relies
    on. -/
structure Layer (ι τ σ : Type) where
  sound : τ → Prop
  stands : τ → σ → Prop
  rely : ι → τ → τ → Prop

namespace Layer

variable (L : Layer ι τ σ) (n : Machine τ F S O' W') (m : Machine σ E R O W)

/-- A step that the others may take for granted. -/
def Guards (i : ι) (t t' : τ) : Prop :=
  L.sound t' ∧ ∀ j, j ≠ i → L.rely j t t'

/-- A step that is not seen above. -/
def Unseen (t t' : τ) : Prop :=
  ∀ s, L.stands t s → L.stands t' s

/-- A step that is the effect `e`, answered by `r`. -/
def Commits (e : E) (r : R e) (t t' : τ) : Prop :=
  ∃ o, ∀ s, L.stands t s → L.stands t' (m.handle s e o).1 ∧ (m.handle s e o).2 = r

/-- A program none of whose steps is seen above, and that returns as `Q` says. -/
def Quiet (i : ι) (Q : α → τ → Prop) : Program F S ε α → τ → Prop
  | .ret a, t => Q a t
  | .raise _, _ => True
  | .perform f next, t =>
    ∃ P : τ → Prop, P t ∧ (∀ t t', P t → L.rely i t t' → P t') ∧
      ∀ t, P t → L.sound t → ∀ o, L.Guards i t (n.handle t f o).1 ∧
        L.Unseen t (n.handle t f o).1 ∧
        Quiet i Q (next (n.handle t f o).2) (n.handle t f o).1

/-- A program one of whose steps is the effect `e`, while the others are not seen above, and that
    returns the answer to `e`. -/
def Performs (i : ι) (e : E) : Program F S ε (R e) → τ → Prop
  | .ret _, _ => False
  | .raise _, _ => True
  | .perform f next, t =>
    ∃ P : τ → Prop, P t ∧ (∀ t t', P t → L.rely i t t' → P t') ∧
      ∀ t, P t → L.sound t → ∀ o, L.Guards i t (n.handle t f o).1 ∧
        (L.Unseen t (n.handle t f o).1 ∧
            Performs i e (next (n.handle t f o).2) (n.handle t f o).1 ∨
          ∃ r, L.Commits m e r t (n.handle t f o).1 ∧
            L.Quiet n i (fun a _ => a = r) (next (n.handle t f o).2) (n.handle t f o).1)

variable {L n m} {i : ι} {t : τ}

namespace Quiet

/-- Composition: the rest starts where the first part returns. -/
lemma bind {Q : α → τ → Prop} {Q' : β → τ → Prop} {p : Program F S ε α}
    {f : α → Program F S ε β} (h : L.Quiet n i Q p t)
    (returns : ∀ a t, Q a t → L.Quiet n i Q' (f a) t) : L.Quiet n i Q' (p >>= f) t := by
  induction p generalizing t with
  | ret a => exact returns a t h
  | raise e => trivial
  | perform e next ih =>
    obtain ⟨P, ht, stable, step⟩ := h
    refine ⟨P, ht, stable, fun t ht sound o => ?_⟩
    obtain ⟨guards, unseen, continues⟩ := step t ht sound o
    exact ⟨guards, unseen, ih _ continues⟩

/-- One step under an assertion that the others keep. -/
lemma call {Q : α → τ → Prop} {e : F} {f : S e → Program F S ε α} (P : τ → Prop) (ht : P t)
    (stable : ∀ t t', P t → L.rely i t t' → P t')
    (step : ∀ t, P t → L.sound t → ∀ o, L.Guards i t (n.handle t e o).1 ∧
      L.Unseen t (n.handle t e o).1 ∧
      L.Quiet n i Q (f (n.handle t e o).2) (n.handle t e o).1) :
    L.Quiet n i Q (Program.call e >>= f) t :=
  ⟨P, ht, stable, step⟩

/-- A value is taken; an exception ends the program. -/
lemma check {Q : β → τ → Prop} {x : Except ε α} {f : α → Program F S ε β}
    (returns : ∀ a, x = .ok a → L.Quiet n i Q (f a) t) :
    L.Quiet n i Q (Program.check x >>= f) t := by
  cases x with
  | ok a => exact returns a rfl
  | error e => trivial

/-- A program in progress is not disturbed by the others. -/
lemma relied {Q : α → τ → Prop} {e : F} {next : S e → Program F S ε α} {t' : τ}
    (h : L.Quiet n i Q (.perform e next) t) (r : L.rely i t t') :
    L.Quiet n i Q (.perform e next) t' := by
  obtain ⟨P, ht, stable, step⟩ := h
  exact ⟨P, stable t t' ht r, stable, step⟩

end Quiet

namespace Performs

variable {e : E}

/-- The first part of a body is not seen. -/
lemma bind {Q : α → τ → Prop} {p : Program F S ε α} {f : α → Program F S ε (R e)}
    (h : L.Quiet n i Q p t) (returns : ∀ a t, Q a t → L.Performs n m i e (f a) t) :
    L.Performs n m i e (p >>= f) t := by
  induction p generalizing t with
  | ret a => exact returns a t h
  | raise e => trivial
  | perform e next ih =>
    obtain ⟨P, ht, stable, step⟩ := h
    refine ⟨P, ht, stable, fun t ht sound o => ?_⟩
    obtain ⟨guards, unseen, continues⟩ := step t ht sound o
    exact ⟨guards, .inl ⟨unseen, ih _ continues⟩⟩

/-- The step that may take effect. -/
lemma call {f : F} {next : S f → Program F S ε (R e)} (P : τ → Prop) (ht : P t)
    (stable : ∀ t t', P t → L.rely i t t' → P t')
    (step : ∀ t, P t → L.sound t → ∀ o, L.Guards i t (n.handle t f o).1 ∧
      (L.Unseen t (n.handle t f o).1 ∧
          L.Performs n m i e (next (n.handle t f o).2) (n.handle t f o).1 ∨
        ∃ r, L.Commits m e r t (n.handle t f o).1 ∧
          L.Quiet n i (fun a _ => a = r) (next (n.handle t f o).2) (n.handle t f o).1)) :
    L.Performs n m i e (Program.call f >>= next) t :=
  ⟨P, ht, stable, step⟩

/-- A body in progress is not disturbed by the others. -/
lemma relied {f : F} {next : S f → Program F S ε (R e)} {t' : τ}
    (h : L.Performs n m i e (.perform f next) t) (r : L.rely i t t') :
    L.Performs n m i e (.perform f next) t' := by
  obtain ⟨P, ht, stable, step⟩ := h
  exact ⟨P, stable t t' ht r, stable, step⟩

end Performs

/-- The steps of the surroundings below are unseen or are steps of the surroundings above, and the
    body of every effect in `K` performs it. -/
structure Fits (L : Layer ι τ σ) (n : Machine τ F S O' W') (m : Machine σ E R O W)
    (K : E → Prop) (body : ι → ∀ e, Program F S ε (R e)) : Prop where
  refl : ∀ i t, L.rely i t t
  drift : ∀ {t w t'}, L.sound t → n.drift t w = some t' →
    L.sound t' ∧ (∀ i, L.rely i t t') ∧
      (L.Unseen t t' ∨ ∃ w', ∀ s, L.stands t s → ∃ s', m.drift s w' = some s' ∧ L.stands t' s')
  performs : ∀ i e t, K e → L.sound t → L.Performs n m i e (body i e) t

/-- How far a process below is in the program that it runs above: in front of the step of an effect,
    behind it, or in no call. -/
inductive Tracks (L : Layer ι τ σ) (n : Machine τ F S O' W') (m : Machine σ E R O W)
    (K : E → Prop) (body : ι → ∀ e, Program F S ε (R e)) (i : ι) (t : τ) :
    Option (Program F S ε α) → Option (Except ε α) → Option (Program E R ε α) →
      Option (Except ε α) → Prop where
  | idle {ended ended'} :
    (∀ a, ended = some (.ok a) → ended' = some (.ok a)) →
    Tracks L n m K body i t none ended none ended'
  | before {e : E} {f : F} {next : R e → Program E R ε α} {next' : S f → Program F S ε (R e)}
      {ended'} :
    L.Performs n m i e (.perform f next') t →
    (∀ r, (next r).Within K) →
    Tracks L n m K body i t
      (some (.perform f fun r => next' r >>= fun a => (next a).implement (body i))) none
      (some (.perform e next)) ended'
  | after {e : E} {f : F} {r : R e} {next : R e → Program E R ε α}
      {next' : S f → Program F S ε (R e)} :
    L.Quiet n i (fun a _ => a = r) (.perform f next') t →
    (∀ r, (next r).Within K) →
    Tracks L n m K body i t
      (some (.perform f fun r => next' r >>= fun a => (next a).implement (body i))) none
      (next r).left (next r).outcome

/-- A process that goes on with `q` below goes on above where it was, unless it raises: then it has
    to crash above. -/
def Follows (L : Layer ι τ σ) (n : Machine τ F S O' W') (m : Machine σ E R O W)
    (K : E → Prop) (body : ι → ∀ e, Program F S ε (R e)) (i : ι) (t : τ) (q : Program F S ε α)
    (running' : Option (Program E R ε α)) (ended' : Option (Except ε α)) : Prop :=
  L.Tracks n m K body i t q.left q.outcome running' ended' ∨
    ∀ ended', L.Tracks n m K body i t q.left q.outcome (none : Option (Program E R ε α)) ended'

/-- The pools of two machines in step. -/
structure Simulates (L : Layer ι τ σ) (n : Machine τ F S O' W') (m : Machine σ E R O W)
    (K : E → Prop) (body : ι → ∀ e, Program F S ε (R e)) (c : Pool ι τ F S ε α)
    (d : Pool ι σ E R ε α) : Prop where
  sound : L.sound c.world
  stands : L.stands c.world d.world
  tracks : ∀ i, L.Tracks n m K body i c.world (c.running i) (c.ended i) (d.running i) (d.ended i)

section Steps

variable {K : E → Prop} {body : ι → ∀ e, Program F S ε (R e)}

/-- The others do not disturb a process. -/
lemma Tracks.relied {t' : τ} {running : Option (Program F S ε α)} {ended}
    {running' : Option (Program E R ε α)} {ended'}
    (h : L.Tracks n m K body i t running ended running' ended') (r : L.rely i t t') :
    L.Tracks n m K body i t' running ended running' ended' := by
  cases h with
  | idle results => exact .idle results
  | before performs within => exact .before (performs.relied r) within
  | after quiet within => exact .after (quiet.relied r) within

/-- A process below goes on with the bodies of the program with which it goes on above. If the
    first body raises, it has to crash above. -/
lemma Tracks.enter (fits : L.Fits n m K body) (sound : L.sound t) {p : Program E R ε α}
    (within : p.Within K) :
    L.Follows n m K body i t (p.implement (body i)) p.left p.outcome := by
  cases p with
  | ret a => exact .inl (.idle fun _ h => h)
  | raise e => exact .inl (.idle fun _ h => h)
  | perform e next =>
    have performs := fits.performs i e t within.1 sound
    simp only [Program.implement]
    cases first : body i e with
    | ret a =>
      rw [first] at performs
      exact performs.elim
    | raise err => exact .inr fun _ => .idle nofun
    | perform f next' =>
      rw [first] at performs
      exact .inl (.before performs within.2)

/-- The same in the middle of a body, in front of the step that takes effect. -/
lemma Tracks.before_goOn {e : E} {next : R e → Program E R ε α} {p : Program F S ε (R e)}
    (h : L.Performs n m i e p t) (within : ∀ r, (next r).Within K)
    (ended' : Option (Except ε α)) :
    L.Follows n m K body i t (p >>= fun a => (next a).implement (body i))
      (some (.perform e next)) ended' := by
  cases p with
  | ret a => exact h.elim
  | raise err => exact .inr fun _ => .idle nofun
  | perform f next' => exact .inl (.before h within)

/-- The same behind that step. -/
lemma Tracks.after_goOn (fits : L.Fits n m K body) (sound : L.sound t) {e : E} {r : R e}
    {next : R e → Program E R ε α} {p : Program F S ε (R e)}
    (h : L.Quiet n i (fun a _ => a = r) p t) (within : ∀ r, (next r).Within K) :
    L.Follows n m K body i t (p >>= fun a => (next a).implement (body i)) (next r).left
      (next r).outcome := by
  cases p with
  | ret a =>
    obtain rfl : a = r := h
    exact Tracks.enter fits sound (within a)
  | raise err => exact .inr fun _ => .idle nofun
  | perform f next' => exact .inl (.after h within)

/-- A process in no call below is in no call above. -/
lemma Tracks.idle_inv {ended} {running' : Option (Program E R ε α)} {ended'}
    (h : L.Tracks n m K body i t (none : Option (Program F S ε α)) ended running' ended') :
    running' = none ∧ ∀ a, ended = some (.ok a) → ended' = some (.ok a) := by
  cases h with
  | idle results => exact ⟨rfl, results⟩

/-- A process in a call below is in a body. -/
lemma Tracks.perform_inv {f : F} {next' : S f → Program F S ε α} {ended}
    {running' : Option (Program E R ε α)} {ended'}
    (h : L.Tracks n m K body i t (some (.perform f next')) ended running' ended') :
    ∃ (e : E) (next : R e → Program E R ε α) (p : S f → Program F S ε (R e)),
      (∀ r, (next r).Within K) ∧ (next' = fun r => p r >>= fun a => (next a).implement (body i)) ∧
      (L.Performs n m i e (.perform f p) t ∧ running' = some (.perform e next) ∨
        ∃ r, L.Quiet n i (fun a _ => a = r) (.perform f p) t ∧
          running' = (next r).left ∧ ended' = (next r).outcome) := by
  cases h with
  | before performs within => exact ⟨_, _, _, within, rfl, .inl ⟨performs, rfl⟩⟩
  | after quiet within => exact ⟨_, _, _, within, rfl, .inr ⟨_, quiet, rfl, rfl⟩⟩

/-- A call that has returned below has returned above. -/
lemma Tracks.ended_inv {running : Option (Program F S ε α)} {a : α}
    {running' : Option (Program E R ε α)} {ended'}
    (h : L.Tracks n m K body i t running (some (.ok a)) running' ended') :
    ended' = some (.ok a) := by
  cases h with
  | idle results => exact results a rfl

/-- A crash below is a crash above. -/
lemma Tracks.crash {running : Option (Program F S ε α)} {ended}
    {running' : Option (Program E R ε α)} {ended'}
    (h : L.Tracks n m K body i t running ended running' ended') :
    L.Tracks n m K body i t (none : Option (Program F S ε α)) ended
      (none : Option (Program E R ε α)) ended' := by
  cases h with
  | idle results => exact .idle results
  | before performs within => exact .idle nofun
  | after quiet within => exact .idle nofun

variable [DecidableEq ι]

/-- A process that has raised below crashes above. -/
lemma Simulates.settle {main : ι → A → Program E R ε α} {c : Pool ι τ F S ε α}
    {d : Pool ι σ E R ε α} (sound : L.sound c.world) (stands : L.stands c.world d.world)
    (others : ∀ j, j ≠ i →
      L.Tracks n m K body j c.world (c.running j) (c.ended j) (d.running j) (d.ended j))
    (self : L.Tracks n m K body i c.world (c.running i) (c.ended i) (d.running i) (d.ended i) ∨
      ∀ ended', L.Tracks n m K body i c.world (c.running i) (c.ended i) none ended') :
    ∃ events d', (m.pool main).run d events = some d' ∧ startedCalls events = [] ∧
      L.Simulates n m K body c d' := by
  rcases self with self | lost
  · refine ⟨[], d, rfl, rfl, sound, stands, fun j => ?_⟩
    by_cases eq : j = i
    · subst eq
      exact self
    · exact others j eq
  · refine ⟨[(i, .crash)], { d with running := Function.update d.running i none }, rfl, rfl, sound,
      stands, fun j => ?_⟩
    by_cases eq : j = i
    · subst eq
      simp only [Function.update_self]
      exact lost _
    · simp only [Function.update_of_ne eq]
      exact others j eq

/-- A process goes on below with `q` and above with `p`. -/
lemma Simulates.goOn (main : ι → A → Program E R ε α) {c : Pool ι τ F S ε α}
    {d : Pool ι σ E R ε α} {t' : τ} {s' : σ} {q : Program F S ε α} {p : Program E R ε α}
    (sim : L.Simulates n m K body c d) (sound : L.sound t') (stands : L.stands t' s')
    (others : ∀ j, j ≠ i → L.rely j c.world t')
    (self : L.Follows n m K body i t' q p.left p.outcome) :
    ∃ events d', (m.pool main).run (d.goOn i s' p) events = some d' ∧ startedCalls events = [] ∧
      L.Simulates n m K body (c.goOn i t' q) d' := by
  apply settle (i := i) sound stands
  · intro j ne
    simp only [Pool.goOn, Function.update_of_ne ne]
    exact (sim.tracks j).relied (others j ne)
  · simp only [Pool.goOn, Function.update_self]
    exact self

/-- Every event below is a sequence of events above that starts the same call, if it starts one. -/
lemma Simulates.step (fits : L.Fits n m K body) {main : ι → A → Program E R ε α}
    (within : ∀ i a, (main i a).Within K) {c c' : Pool ι τ F S ε α} {d : Pool ι σ E R ε α}
    (sim : L.Simulates n m K body c d)
    {ev : ι × RunEvent A O' W'}
    (st : (n.pool fun i a => (main i a).implement (body i)).step c ev = some c') :
    ∃ events d', (m.pool main).run d events = some d' ∧
      startedCalls events = startedCalls [ev] ∧ L.Simulates n m K body c' d' := by
  obtain ⟨k, ev⟩ := ev
  have track := sim.tracks k
  cases ev with
  | start a =>
    simp only [Machine.pool] at st
    split at st
    · rename_i free
      cases st
      rw [free] at track
      obtain ⟨free', _⟩ := track.idle_inv
      obtain ⟨events, d', rn, none, sim'⟩ := sim.goOn main sim.sound sim.stands
        (fun j _ => fits.refl j c.world) (Tracks.enter fits sim.sound (within k a))
      refine ⟨(k, .start a) :: events, d', System.run_cons.mpr ⟨_, ?_, rn⟩,
        congrArg ((k, a) :: ·) none, sim'⟩
      simp only [Machine.pool, free']
    · cases st
  | perform o =>
    simp only [Machine.pool] at st
    split at st
    · rename_i f next' running
      cases st
      rw [running] at track
      obtain ⟨e, next, p, inside, rfl, ⟨performs, running'⟩ | ⟨r, quiet, running', ended'⟩⟩ :=
        track.perform_inv
      · obtain ⟨P, ht, _, step⟩ := performs
        obtain ⟨guards, ⟨unseen, continues⟩ | ⟨r, ⟨o', commits⟩, continues⟩⟩ :=
          step c.world ht sim.sound o
        · refine settle (i := k) guards.1 (unseen _ sim.stands) ?_ ?_
          · intro j ne
            simp only [Pool.goOn, Function.update_of_ne ne]
            exact (sim.tracks j).relied (guards.2 j ne)
          · simp only [Pool.goOn, Function.update_self, running']
            exact Tracks.before_goOn continues inside _
        · obtain ⟨stands, answered⟩ := commits d.world sim.stands
          obtain ⟨events, d', rn, none, sim'⟩ := sim.goOn main guards.1 stands guards.2
            (Tracks.after_goOn fits guards.1 continues inside)
          refine ⟨(k, .perform o') :: events, d', System.run_cons.mpr ⟨_, ?_, rn⟩, none, sim'⟩
          simp only [Machine.pool, running', answered]
      · obtain ⟨P, ht, _, step⟩ := quiet
        obtain ⟨guards, unseen, continues⟩ := step c.world ht sim.sound o
        refine settle (i := k) guards.1 (unseen _ sim.stands) ?_ ?_
        · intro j ne
          simp only [Pool.goOn, Function.update_of_ne ne]
          exact (sim.tracks j).relied (guards.2 j ne)
        · simp only [Pool.goOn, Function.update_self, running', ended']
          exact Tracks.after_goOn fits guards.1 continues inside
    · cases st
  | crash =>
    cases st
    refine ⟨[(k, .crash)], { d with running := Function.update d.running k none }, rfl, rfl,
      sim.sound, sim.stands, fun j => ?_⟩
    by_cases eq : j = k
    · subst eq
      simp only [Function.update_self]
      exact track.crash
    · simp only [Function.update_of_ne eq]
      exact sim.tracks j
  | drift w =>
    obtain ⟨world, drifted, rfl⟩ := Option.map_eq_some_iff.mp st
    obtain ⟨sound, relies, unseen | ⟨w', moves⟩⟩ := fits.drift sim.sound drifted
    · exact ⟨[], d, rfl, rfl, sound, unseen _ sim.stands,
        fun i => (sim.tracks i).relied (relies i)⟩
    · obtain ⟨s', moved, stands⟩ := moves d.world sim.stands
      refine ⟨[(k, .drift w')], { d with world := s' }, ?_, rfl, sound, stands, fun i =>
        (sim.tracks i).relied (relies i)⟩
      simp only [System.run, Machine.pool, moved]
      rfl

/-- Every run below is a run of the same calls above. -/
lemma Simulates.run (fits : L.Fits n m K body) {main : ι → A → Program E R ε α}
    (within : ∀ i a, (main i a).Within K) {c c' : Pool ι τ F S ε α} {d : Pool ι σ E R ε α}
    (sim : L.Simulates n m K body c d)
    {events : List (ι × RunEvent A O' W')}
    (rn : (n.pool fun i a => (main i a).implement (body i)).run c events = some c') :
    ∃ events' d', (m.pool main).run d events' = some d' ∧
      startedCalls events' = startedCalls events ∧ L.Simulates n m K body c' d' := by
  induction events generalizing c d with
  | nil =>
    cases rn
    exact ⟨[], d, rfl, rfl, sim⟩
  | cons ev events ih =>
    obtain ⟨c₁, st, rn⟩ := System.run_cons.mp rn
    obtain ⟨first, d₁, rn₁, same₁, sim₁⟩ := sim.step fits within st
    obtain ⟨rest, d', rn', same', sim'⟩ := ih sim₁ rn
    refine ⟨first ++ rest, d', System.run_append.mpr ⟨d₁, rn₁, rn'⟩, ?_, sim'⟩
    have split : startedCalls (ev :: events) = startedCalls [ev] ++ startedCalls events :=
      List.filterMap_append (l := [ev])
    rw [split, ← same₁, ← same']
    exact List.filterMap_append

end Steps

end Layer

/-- A run of several processes over the bodies of their effects is a run of the same calls over the
    effects themselves. -/
theorem Machine.pool_implements [DecidableEq ι] {L : Layer ι τ σ} {n : Machine τ F S O' W'}
    {m : Machine σ E R O W} {K : E → Prop} {body : ι → ∀ e, Program F S ε (R e)}
    (fits : L.Fits n m K body) {main : ι → A → Program E R ε α}
    (within : ∀ i a, (main i a).Within K) {t : τ} {s : σ} (sound : L.sound t)
    (stands : L.stands t s)
    {events : List (ι × RunEvent A O' W')} {c : Pool ι τ F S ε α}
    (rn : (n.pool fun i a => (main i a).implement (body i)).run { world := t } events = some c) :
    ∃ events' d, (m.pool main).run { world := s } events' = some d ∧
      startedCalls events' = startedCalls events ∧ L.Simulates n m K body c d :=
  Layer.Simulates.run fits within ⟨sound, stands, fun _ => .idle nofun⟩ rn

/-- Every call that has returned below has returned the same above. -/
lemma Layer.Simulates.returned {L : Layer ι τ σ} {n : Machine τ F S O' W'}
    {m : Machine σ E R O W} {K : E → Prop} {body : ι → ∀ e, Program F S ε (R e)}
    {c : Pool ι τ F S ε α}
    {d : Pool ι σ E R ε α} (sim : L.Simulates n m K body c d) {i : ι} {a : α}
    (result : c.ended i = some (.ok a)) : d.ended i = some (.ok a) := by
  have track := sim.tracks i
  rw [result] at track
  exact track.ended_inv

/-! ## What holds of the lower worlds alone -/

/-- The machine that answers anything. -/
def Machine.oracle (E : Type) (R : E → Type) : Machine Unit E R (∀ e, R e) Empty where
  handle s e o := (s, o e)
  drift _ w := nomatch w

/-- A layer without an upper world. -/
def Layer.bottom (L : Layer ι τ σ) : Layer ι τ Unit :=
  { L with stands := fun _ _ => True }

section Bottom

variable {L : Layer ι τ σ} {n : Machine τ F S O' W'} {m : Machine σ E R O W} {i : ι}

lemma Layer.Quiet.bottom {Q : α → τ → Prop} {p : Program F S ε α} {t : τ}
    (h : L.Quiet n i Q p t) : L.bottom.Quiet n i Q p t := by
  induction p generalizing t with
  | ret a => exact h
  | raise e => trivial
  | perform f next ih =>
    obtain ⟨P, ht, stable, step⟩ := h
    refine ⟨P, ht, stable, fun t ht sound o => ?_⟩
    obtain ⟨guards, _, continues⟩ := step t ht sound o
    exact ⟨guards, fun _ _ => trivial, ih _ continues⟩

lemma Layer.Performs.bottom [∀ e, Nonempty (R e)] {e : E} {p : Program F S ε (R e)} {t : τ}
    (h : L.Performs n m i e p t) : L.bottom.Performs n (Machine.oracle E R) i e p t := by
  classical
  induction p generalizing t with
  | ret a => exact h
  | raise err => trivial
  | perform f next ih =>
    obtain ⟨P, ht, stable, step⟩ := h
    refine ⟨P, ht, stable, fun t ht sound o => ?_⟩
    obtain ⟨guards, ⟨_, continues⟩ | ⟨r, _, continues⟩⟩ := step t ht sound o
    · exact ⟨guards, .inl ⟨fun _ _ => trivial, ih _ continues⟩⟩
    · let others : ∀ e, R e := fun e => Classical.ofNonempty
      refine ⟨guards, .inr ⟨r, ⟨Function.update others e r, ?_⟩, continues.bottom⟩⟩
      exact fun _ _ => ⟨trivial, Function.update_self e r others⟩

/-- Every run on a lower machine stays sound, from every sound world. -/
theorem Machine.pool_sound [DecidableEq ι] [∀ e, Nonempty (R e)] {K : E → Prop}
    {body : ι → ∀ e, Program F S ε (R e)} (fits : L.Fits n m K body)
    {main : ι → A → Program E R ε α} (within : ∀ i a, (main i a).Within K) {t : τ}
    (sound : L.sound t) {events : List (ι × RunEvent A O' W')} {c : Pool ι τ F S ε α}
    (rn : (n.pool fun i a => (main i a).implement (body i)).run { world := t } events = some c) :
    L.sound c.world := by
  have fits' : L.bottom.Fits n (Machine.oracle E R) K body := by
    refine ⟨fits.refl, fun sound moved => ?_, fun i e t inside sound => ?_⟩
    · obtain ⟨sound, relies, _⟩ := fits.drift sound moved
      exact ⟨sound, relies, .inl fun _ _ => trivial⟩
    · exact (fits.performs i e t inside sound).bottom
  obtain ⟨_, _, _, _, sim⟩ := Machine.pool_implements fits' within (s := ()) sound trivial rn
  exact sim.sound

end Bottom

end ResearchController.Lib

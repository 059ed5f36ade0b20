/-
  Steps that may fail.

  * `Ensures`: what a step on a state leads to, if it does not fail; there is one rule for each
    way to put steps together;
  * `Upholds`: so for steps that keep an invariant and lead to states that come of those before;
  * `FailsOnly`: with which errors a step fails, if it does;
  * `Passes`: where a step leads to by certain moves, whether it fails or not; `Agrees` says so of
    two versions of a step that do the same;
  * `Stage.ensures_once`, `Stage.ensures_exactlyOnce`, `Stage.ensures_toFixedPoint`: what the
    application of a pass leads to;
  * `Stage.failsOnly_exactlyOnce`, `Stage.failsOnly_toFixedPoint`: how it may fail.
-/
import Mathlib.Logic.Relation
import SchemaTypes.Stage

namespace SchemaTypes

/-- If a step succeeds, then with a result and a state that satisfy the predicate. -/
def Ensures {ε σ α : Type} (m : ExceptT ε (StateM σ) α) (s : σ) (Q : α → σ → Prop) : Prop :=
  ∀ a s', m.run s = (.ok a, s') → Q a s'

section

variable {ε σ α β : Type} {m : ExceptT ε (StateM σ) α} {s : σ} {Q R : α → σ → Prop}

theorem Ensures.mono (h : Ensures m s Q) (hQ : ∀ a s', Q a s' → R a s') : Ensures m s R :=
  fun a s' hm => hQ a s' (h a s' hm)

theorem run_bind (f : α → ExceptT ε (StateM σ) β) (s : σ) : (m >>= f).run s =
    match m.run s with
    | (.ok a, s₁) => (f a).run s₁
    | (.error e, s₁) => (.error e, s₁) := by
  show (m.run >>= ExceptT.bindCont f) s = _
  show (match m.run s with | (x, s₁) => ExceptT.bindCont f x s₁) = _
  rcases m.run s with ⟨_ | _, _⟩ <;> rfl

theorem Ensures.bind {f : α → ExceptT ε (StateM σ) β} {Q : β → σ → Prop}
    (h : Ensures m s fun a s' => Ensures (f a) s' Q) : Ensures (m >>= f) s Q := by
  intro b s' hb
  rw [run_bind] at hb
  split at hb
  · next a s₁ hm => exact h a s₁ hm b s' hb
  · cases hb

theorem Ensures.seq {f : α → ExceptT ε (StateM σ) β} {Q : β → σ → Prop} (h : Ensures m s R)
    (hf : ∀ a s', R a s' → Ensures (f a) s' Q) : Ensures (m >>= f) s Q :=
  (h.mono hf).bind

theorem run_eq_of_isOk {m : ExceptT ε (StateM σ) PUnit} (h : (m.run s).1.isOk = true) :
    m.run s = (.ok ⟨⟩, (m.run s).2) := by
  generalize m.run s = x at h ⊢
  obtain ⟨_ | _, s'⟩ := x
  · cases h
  · rfl

theorem ensures_pure {a : α} (h : Q a s) : Ensures (pure a : ExceptT ε (StateM σ) α) s Q := by
  intro b s' hb
  cases hb
  exact h

theorem discard_eq_bind (m : ExceptT ε (StateM σ) α) :
    Functor.discard m = m >>= fun _ => pure ⟨⟩ := rfl

theorem Ensures.discard {Q : PUnit → σ → Prop} (h : Ensures m s fun _ => Q ⟨⟩) :
    Ensures (discard m) s Q := by
  rw [discard_eq_bind]
  exact Ensures.bind (h.mono fun _ _ hQ => ensures_pure hQ)

theorem ensures_throw {e : ε} : Ensures (throw e : ExceptT ε (StateM σ) α) s Q := by
  intro b s' hb
  cases hb

theorem ensures_lift {x : Except ε α} (h : ∀ a, x = .ok a → Q a s) :
    Ensures (liftM x : ExceptT ε (StateM σ) α) s Q := by
  intro b s' hb
  cases x with
  | error e => cases hb
  | ok a =>
    cases hb
    exact h _ rfl

theorem ensures_get {Q : σ → σ → Prop} (h : Q s s) :
    Ensures (get : ExceptT ε (StateM σ) σ) s Q := by
  intro b s' hb
  cases hb
  exact h

theorem ensures_modifyGet {f : σ → α × σ} (h : Q (f s).1 (f s).2) :
    Ensures (modifyGet f : ExceptT ε (StateM σ) α) s Q := by
  intro b s' hb
  cases hb
  exact h

theorem ensures_modify {f : σ → σ} {Q : PUnit → σ → Prop} (h : Q ⟨⟩ (f s)) :
    Ensures (modify f : ExceptT ε (StateM σ) PUnit) s Q := by
  intro b s' hb
  cases hb
  exact h

/-! ## Invariants -/

/-- If a step succeeds, then in a state that satisfies an invariant and comes of the one before,
    with a result that satisfies the predicate. -/
def Upholds (I : σ → Prop) (R : σ → σ → Prop) (m : ExceptT ε (StateM σ) α) (s : σ)
    (Q : α → σ → Prop) : Prop :=
  Ensures m s fun x s' => I s' ∧ R s s' ∧ Q x s'

namespace Upholds

variable {I : σ → Prop} {r : σ → σ → Prop} {s' : σ}

theorem andThen {f : α → ExceptT ε (StateM σ) β} {R : β → σ → Prop} (h : Upholds I r m s Q)
    (hf : ∀ x s', I s' → r s s' → Q x s' → Ensures (f x) s' R) : Ensures (m >>= f) s R :=
  h.seq fun x s' ⟨hs', h', hx⟩ => hf x s' hs' h' hx

/-- A part that is made only where it is needed. -/
theorem optional_andThen {c : Prop} [Decidable c] {f : List α → ExceptT ε (StateM σ) β}
    {Q : List α → σ → Prop} {R : β → σ → Prop} (hm : c → Upholds I r m s fun x s' => Q [x] s')
    (hn : ¬c → I s ∧ Q [] s) (hr : r s s)
    (hf : ∀ xs s', I s' → r s s' → Q xs s' → Ensures (f xs) s' R) :
    Ensures (if c then do let xs ← Pure.pure [← m]; f xs else do let xs ← Pure.pure []; f xs)
      s R := by
  split
  · next hc =>
    refine (hm hc).andThen fun x s₁ hs₁ h₁ hx => ?_
    exact Ensures.bind (ensures_pure (hf [x] s₁ hs₁ h₁ hx))
  · next hc => exact Ensures.bind (ensures_pure (hf [] s (hn hc).1 hr (hn hc).2))

theorem mono (h : Upholds I r m s Q) (hQ : ∀ x s', I s' → r s s' → Q x s' → R x s') :
    Upholds I r m s R :=
  Ensures.mono h fun x s' ⟨hs', h', hx⟩ => ⟨hs', h', hQ x s' hs' h' hx⟩

theorem throw {e : ε} : Upholds I r (throw e : ExceptT ε (StateM σ) α) s Q := ensures_throw

variable [IsPreorder σ r]

theorem continued (h : Upholds I r m s' Q) (hs : r s s') :
    Ensures m s' fun x s'' => I s'' ∧ r s s'' ∧ Q x s'' :=
  Ensures.mono h fun _ _ ⟨hs'', h'', hx⟩ => ⟨hs'', IsTrans.trans _ _ _ hs h'', hx⟩

theorem bind {f : α → ExceptT ε (StateM σ) β} {R : β → σ → Prop} (h : Upholds I r m s Q)
    (hf : ∀ x s', I s' → r s s' → Q x s' → Upholds I r (f x) s' R) :
    Upholds I r (m >>= f) s R :=
  h.andThen fun x s' hs' h' hx => (hf x s' hs' h' hx).continued h'

theorem optional {c : Prop} [Decidable c] {f : List α → ExceptT ε (StateM σ) β}
    {Q : List α → σ → Prop} {R : β → σ → Prop} (hs : I s)
    (hm : c → Upholds I r m s fun x s' => Q [x] s') (hn : ¬c → Q [] s)
    (hf : ∀ xs s', I s' → r s s' → Q xs s' → Upholds I r (f xs) s' R) :
    Upholds I r (if c then do let xs ← Pure.pure [← m]; f xs else do let xs ← Pure.pure []; f xs)
      s R :=
  optional_andThen hm (fun hc => ⟨hs, hn hc⟩) (Std.Refl.refl s) fun xs s' hs' h hxs =>
    (hf xs s' hs' h hxs).continued h

theorem pure (hs : I s) {x : α} (hx : Q x s) :
    Upholds I r (Pure.pure x : ExceptT ε (StateM σ) α) s Q :=
  ensures_pure ⟨hs, Std.Refl.refl s, hx⟩

theorem map {f : α → β} {R : β → σ → Prop} (h : Upholds I r m s fun x s' => R (f x) s') :
    Upholds I r (f <$> m) s R := by
  rw [map_eq_pure_bind]
  exact h.bind fun _ _ hs' _ hx => .pure hs' hx

theorem lift (hs : I s) (x : Except ε α) :
    Upholds I r (liftM x : ExceptT ε (StateM σ) α) s fun y _ => x = .ok y :=
  ensures_lift fun _ hy => ⟨hs, Std.Refl.refl s, hy⟩

end Upholds

/-! ## Failures -/

/-- If a step fails, then with an error that satisfies the predicate. -/
def FailsOnly (m : ExceptT ε (StateM σ) α) (s : σ) (P : ε → Prop) : Prop :=
  ∀ e s', m.run s = (.error e, s') → P e

variable {P : ε → Prop}

/-- A step that does not succeed, and fails with one error alone, fails with it. -/
theorem FailsOnly.exists_run_eq {e : ε} (hf : FailsOnly m s (· = e))
    (h : Ensures m s fun _ _ => False) : ∃ s', m.run s = (.error e, s') := by
  cases hm : m.run s with
  | mk x s' =>
    cases x with
    | ok a => exact (h a s' hm).elim
    | error e' => exact ⟨s', by rw [hf e' s' hm]⟩

theorem FailsOnly.bind {f : α → ExceptT ε (StateM σ) β} (h : FailsOnly m s P)
    (hf : Ensures m s fun a s' => FailsOnly (f a) s' P) : FailsOnly (m >>= f) s P := by
  intro e s' he
  rw [run_bind] at he
  split at he
  · next a s₁ hm => exact hf a s₁ hm e s' he
  · next e' s₁ hm =>
    cases he
    exact h e _ hm

/-- Steps in turn fail only as each does, where the one before leads to. -/
theorem FailsOnly.seq {f : α → ExceptT ε (StateM σ) β} (h : FailsOnly m s P)
    (hm : Ensures m s R) (hf : ∀ a s', R a s' → FailsOnly (f a) s' P) :
    FailsOnly (m >>= f) s P :=
  h.bind (hm.mono hf)

theorem failsOnly_pure {a : α} : FailsOnly (pure a : ExceptT ε (StateM σ) α) s P := by
  intro e s' he
  cases he

theorem failsOnly_throw {e : ε} (h : P e) :
    FailsOnly (throw e : ExceptT ε (StateM σ) α) s P := by
  intro e' s' he
  cases he
  exact h

theorem failsOnly_modifyGet {f : σ → α × σ} :
    FailsOnly (modifyGet f : ExceptT ε (StateM σ) α) s P := by
  intro e s' he
  cases he

theorem failsOnly_modify {f : σ → σ} :
    FailsOnly (modify f : ExceptT ε (StateM σ) PUnit) s P := by
  intro e s' he
  cases he

theorem FailsOnly.discard (h : FailsOnly m s P) : FailsOnly (discard m) s P := by
  rw [discard_eq_bind]
  exact h.bind fun _ _ _ => failsOnly_pure

/-! ## Moves -/

/-- Two versions of a step do the same: they lead to a state by moves, whether they fail or not,
    and fail only as `P` says and succeed only as `Q` says. -/
structure Agrees (move : σ → σ → Prop) (P : ε → Prop) (m m' : ExceptT ε (StateM σ) α) (s : σ)
    (Q : α → σ → Prop) : Prop where
  run_eq : m'.run s = m.run s
  reaches : Relation.ReflTransGen move s (m.run s).2
  failsOnly : FailsOnly m s P
  ensures : Ensures m s Q

/-- A step leads to a state by moves, and fails and succeeds only as `P` and `Q` say. -/
abbrev Passes (move : σ → σ → Prop) (P : ε → Prop) (m : ExceptT ε (StateM σ) α) (s : σ)
    (Q : α → σ → Prop) : Prop :=
  Agrees move P m m s Q

namespace Agrees

variable {move : σ → σ → Prop} {m' : ExceptT ε (StateM σ) α}

/-- What a step leads to is reached by moves, whatever comes out of it. -/
theorem reaches_of_run {x : Except ε α} {s' : σ} (h : Agrees move P m m' s Q)
    (hm : m.run s = (x, s')) : Relation.ReflTransGen move s s' := by
  have hreaches := h.reaches
  rwa [hm] at hreaches

theorem mono (h : Agrees move P m m' s Q)
    (hQ : ∀ a s', Relation.ReflTransGen move s s' → Q a s' → R a s') : Agrees move P m m' s R where
  run_eq := h.run_eq
  reaches := h.reaches
  failsOnly := h.failsOnly
  ensures a s' hm := hQ a s' (h.reaches_of_run hm) (h.ensures a s' hm)

theorem bind {f f' : α → ExceptT ε (StateM σ) β} {R : β → σ → Prop}
    (h : Agrees move P m m' s Q)
    (hf : ∀ a s', Relation.ReflTransGen move s s' → Q a s' → Agrees move P (f a) (f' a) s' R) :
    Agrees move P (m >>= f) (m' >>= f') s R := by
  have hnext : ∀ a s', m.run s = (.ok a, s') → Agrees move P (f a) (f' a) s' R := fun a s' hm =>
    hf a s' (h.reaches_of_run hm) (h.ensures a s' hm)
  refine ⟨?_, ?_, h.failsOnly.bind fun a s' hm => (hnext a s' hm).failsOnly,
    Ensures.bind fun a s' hm => (hnext a s' hm).ensures⟩
  · rw [run_bind, run_bind, h.run_eq]
    split
    · next a s₁ hm => exact (hnext a s₁ hm).run_eq
    · rfl
  · rw [run_bind]
    split
    · next a s₁ hm => exact (h.reaches_of_run hm).trans (hnext a s₁ hm).reaches
    · next e s₁ hm => exact h.reaches_of_run hm

/-- Steps that go on as others do from a state that is reached agree if those do. -/
theorem of_run_eq {n n' : ExceptT ε (StateM σ) α} {s' : σ} (h : Agrees move P n n' s' Q)
    (hmove : Relation.ReflTransGen move s s') (hm : m.run s = n.run s')
    (hm' : m'.run s = n'.run s') : Agrees move P m m' s Q where
  run_eq := by rw [hm, hm', h.run_eq]
  reaches := hm ▸ hmove.trans h.reaches
  failsOnly e s'' he := h.failsOnly e s'' (hm ▸ he)
  ensures a s'' ha := h.ensures a s'' (hm ▸ ha)

theorem map {f : α → β} {R : β → σ → Prop}
    (h : Agrees move P m m' s fun a s' => R (f a) s') : Agrees move P (f <$> m) (f <$> m') s R := by
  rw [map_eq_pure_bind, map_eq_pure_bind]
  exact h.bind fun _ _ _ hR => ⟨rfl, .refl, failsOnly_pure, ensures_pure hR⟩

theorem discard (h : Agrees move P m m' s Q) :
    Agrees move P (discard m) (discard m') s fun _ _ => True := by
  rw [discard_eq_bind, discard_eq_bind]
  exact h.bind fun _ _ _ _ => ⟨rfl, .refl, failsOnly_pure, ensures_pure trivial⟩

end Agrees

namespace Passes

variable {move : σ → σ → Prop}

theorem pure {a : α} (h : Q a s) : Passes move P (pure a) s Q :=
  ⟨rfl, .refl, failsOnly_pure, ensures_pure h⟩

theorem throw {e : ε} (h : P e) : Passes move P (throw e) s Q :=
  ⟨rfl, .refl, failsOnly_throw h, ensures_throw⟩

theorem lift {x : Except ε α} (he : ∀ e, x = .error e → P e) (ha : ∀ a, x = .ok a → Q a s) :
    Passes move P (liftM x) s Q := by
  refine ⟨rfl, ?_, ?_, ensures_lift ha⟩
  · cases x <;> exact .refl
  · intro e s' hm
    cases x with
    | error e' =>
      cases hm
      exact he _ rfl
    | ok a => cases hm

theorem get {Q : σ → σ → Prop} (h : Q s s) : Passes move P get s Q :=
  ⟨rfl, .refl, fun _ _ hm => (by cases hm), ensures_get h⟩

theorem modifyGet {f : σ → α × σ} (hmove : Relation.ReflTransGen move s (f s).2)
    (h : Q (f s).1 (f s).2) : Passes move P (modifyGet f) s Q :=
  ⟨rfl, hmove, failsOnly_modifyGet, ensures_modifyGet h⟩

/-- A step that does to a part of a state what another does to that alone. -/
theorem of_part {ε' τ : Type} {n : ExceptT ε' (StateM τ) α} {t : τ} {move' : τ → τ → Prop}
    {P' : ε' → Prop} {f : ε → ε'} {R : α → τ → Prop} (put : σ → τ) (h : Passes move P m s Q)
    (hrun : n.run t = ((m.run s).1.mapError f, put (m.run s).2))
    (hmove : Relation.ReflTransGen move' t (put (m.run s).2)) (hP : ∀ e, P e → P' (f e))
    (hR : ∀ a s', Q a s' → R a (put s')) : Passes move' P' n t R := by
  cases hm : m.run s with
  | mk x s' =>
    rw [hm] at hrun hmove
    refine ⟨rfl, by rwa [hrun], fun e t' he => ?_, fun a t' ha => ?_⟩
    · rw [hrun] at he
      cases x <;> cases he
      exact hP _ (h.failsOnly _ s' hm)
    · rw [hrun] at ha
      cases x <;> cases ha
      exact hR a s' (h.ensures a s' hm)

theorem modify {f : σ → σ} {Q : PUnit → σ → Prop} (hmove : Relation.ReflTransGen move s (f s))
    (h : Q ⟨⟩ (f s)) : Passes move P (modify f) s Q :=
  ⟨rfl, hmove, failsOnly_modify, ensures_modify h⟩

/-- A step for each of several values in turn. -/
theorem forM {f : α → ExceptT ε (StateM σ) PUnit} {xs : List α}
    (h : ∀ x s', Passes move P (f x) s' fun _ _ => True) :
    Passes move P (xs.forM f) s fun _ _ => True := by
  induction xs generalizing s with
  | nil => exact pure trivial
  | cons x xs ih => exact (h x s).bind fun _ _ _ _ => ih

end Passes

end

/-! ## Stages -/

namespace Stage

variable {stage : String} {pass : Pass} {g : Graph}

theorem ensures_apply {Q : Bool × Bool → Graph → Prop}
    (h : Q ((pass g).2, !(pass g).1.collect.same g) (pass g).1.collect) :
    Ensures (modifyGet (apply pass) : StageM (Bool × Bool)) g Q :=
  ensures_modifyGet h

theorem ensures_once {Q : Bool → Graph → Prop}
    (h : Q (!(pass g).1.collect.same g) (pass g).1.collect) : Ensures (once pass) g Q :=
  (ensures_apply (ensures_pure h)).bind

theorem ensures_change {f : Graph → Graph} {Q : Graph → Prop} (h : Q (f g).collect) :
    Ensures (discard <| once (.ofChange f)) g fun _ => Q := by
  have honce : Ensures (once (.ofChange f)) g fun _ => Q := ensures_once h
  exact honce.discard

theorem ensures_exactlyOnce {Q : PUnit → Graph → Prop}
    (h : (pass g).2 = true → Q ⟨⟩ (pass g).1.collect) : Ensures (exactlyOnce stage pass) g Q := by
  refine (ensures_apply ?_).bind
  dsimp only
  split
  · next hdone => exact ensures_pure (h hdone)
  · exact ensures_throw

/-- Invariants of the passes hold in the end, and what the last pass leads to, which changes
    nothing. -/
theorem ensures_repeatFrom {passes : Nat → Pass} {I Q : Graph → Prop}
    (hI : ∀ i g, I g → I (passes i g).1.collect)
    (hQ : ∀ i g, I g → (passes i g).1.collect.same g = true → (passes i g).2 = true →
      Q (passes i g).1.collect)
    (n i : Nat) (done : Bool) (h : I g) :
    Ensures (repeatFrom stage passes n i done) g fun _ g' => I g' ∧ Q g' := by
  induction n generalizing g i done with
  | zero => exact ensures_throw
  | succ n ih =>
    refine (ensures_apply ?_).bind
    dsimp only
    split
    · next hsame =>
      split
      · next hdone => exact ensures_pure ⟨hI i g h, hQ i g h (by simpa using hsame) hdone⟩
      · exact ensures_throw
    split
    · exact ensures_throw
    · exact ih _ _ (hI i g h)

/-- **Passes in turn keep an invariant, and the last one is done.** -/
theorem ensures_toFixedPoint {passes : Nat → Pass} {I Q : Graph → Prop}
    (hI : ∀ i g, I g → I (passes i g).1.collect)
    (hQ : ∀ i g, I g → (passes i g).1.collect.same g = true → (passes i g).2 = true →
      Q (passes i g).1.collect) (h : I g) :
    Ensures (toFixedPoint stage passes) g fun _ g' => I g' ∧ Q g' :=
  ensures_repeatFrom hI hQ iterationLimit 0 false h

/-! ## Failing stages -/

variable {P : StageError → Prop}

theorem failsOnly_once : FailsOnly (once pass) g P :=
  failsOnly_modifyGet.bind fun _ _ _ => failsOnly_pure

theorem failsOnly_exactlyOnce (h : (pass g).2 = false → P (.extraIteration stage)) :
    FailsOnly (exactlyOnce stage pass) g P := by
  refine failsOnly_modifyGet.bind (ensures_apply ?_)
  dsimp only
  split
  · exact failsOnly_pure
  · next hdone => exact failsOnly_throw (h ((Bool.not_eq_true _).mp hdone))

/-- How passes in turn may fail: one is not done but changes nothing, one changes something after
    the one before was done, or there are too many. -/
theorem failsOnly_repeatFrom {passes : Nat → Pass} {I : Graph → Prop}
    (hI : ∀ i g, I g → I (passes i g).1.collect)
    (hlimit : P (.iterationLimit stage iterationLimit))
    (hsame : ∀ i g, I g → (passes i g).1.collect.same g = true → (passes i g).2 = false →
      P (.notConverged stage))
    (hdone : ∀ i g, I g → (passes i g).2 = true →
      (passes (i + 1) (passes i g).1.collect).1.collect.same (passes i g).1.collect = false →
        P (.changedAfterDone stage))
    (n i : Nat) (done : Bool) (h : I g)
    (hchanged : done = true → (passes i g).1.collect.same g = false → P (.changedAfterDone stage)) :
    FailsOnly (repeatFrom stage passes n i done) g P := by
  induction n generalizing g i done with
  | zero => exact failsOnly_throw hlimit
  | succ n ih =>
    refine failsOnly_modifyGet.bind (ensures_apply ?_)
    dsimp only
    split
    · next hs =>
      split
      · exact failsOnly_pure
      · next hd => exact failsOnly_throw (hsame i g h (by simpa using hs) (by simpa using hd))
    split
    · next hs hd => exact failsOnly_throw (hchanged hd (by simpa using hs))
    · exact ih (i + 1) _ (hI i g h) fun hd hs => hdone i g h hd hs

/-- **Passes in turn fail only at the limit**, if a pass that changes nothing is done, and nothing
    changes after it. -/
theorem failsOnly_toFixedPoint {passes : Nat → Pass} {I : Graph → Prop}
    (hI : ∀ i g, I g → I (passes i g).1.collect)
    (hlimit : P (.iterationLimit stage iterationLimit))
    (hsame : ∀ i g, I g → (passes i g).1.collect.same g = true → (passes i g).2 = false →
      P (.notConverged stage))
    (hdone : ∀ i g, I g → (passes i g).2 = true →
      (passes (i + 1) (passes i g).1.collect).1.collect.same (passes i g).1.collect = false →
        P (.changedAfterDone stage))
    (h : I g) : FailsOnly (toFixedPoint stage passes) g P :=
  failsOnly_repeatFrom hI hlimit hsame hdone iterationLimit 0 false h Bool.noConfusion

/-! ## Stages that succeed -/

/-- What the first of several applications leads to. -/
theorem run_repeatFrom_succ (stage : String) (passes : Nat → Pass) (n i : Nat) (done : Bool)
    (g : Graph) : (repeatFrom stage passes (n + 1) i done).run g =
      if (passes i g).1.collect.same g then
        if (passes i g).2 then (.ok ⟨⟩, (passes i g).1.collect)
        else (.error (.notConverged stage), (passes i g).1.collect)
      else if done then (.error (.changedAfterDone stage), (passes i g).1.collect)
      else (repeatFrom stage passes n (i + 1) (passes i g).2).run (passes i g).1.collect := by
  have happly : (modifyGet (apply (passes i)) : StageM (Bool × Bool)).run g =
      (.ok ((passes i g).2, !(passes i g).1.collect.same g), (passes i g).1.collect) := rfl
  rw [repeatFrom, run_bind, happly]
  dsimp only
  cases (passes i g).1.collect.same g
  · cases done <;> rfl
  · cases (passes i g).2 <;> rfl

/-- **A pass in turn comes to an end**, if every application lowers a bound, the last one is done,
    one that changes nothing is done, and nothing changes after one that is done. -/
theorem repeatFrom_succeeds {I : Nat → Graph → Prop}
    (hI : ∀ k g, I (k + 1) g → I k (pass g).1.collect) (hlast : ∀ g, I 1 g → (pass g).2 = true)
    (hsame : ∀ k g, I k g → (pass g).1.collect.same g = true → (pass g).2 = true)
    (hdone : ∀ k g, I k g → (pass g).2 = true →
      (pass (pass g).1.collect).1.collect.same (pass g).1.collect = true)
    {k n : Nat} (i : Nat) (h : I (k + 1) g) (hn : k + 2 ≤ n) :
    ∃ g', (repeatFrom stage (fun _ => pass) n i false).run g = (.ok ⟨⟩, g') := by
  induction k generalizing n i g with
  | zero =>
    obtain ⟨n, rfl⟩ := Nat.exists_eq_add_of_le' hn
    have hd := hlast g h
    rw [show n + 2 = (n + 1) + 1 from rfl, run_repeatFrom_succ, hd]
    split
    · exact ⟨_, rfl⟩
    · have hs := hdone 1 g h hd
      have hd' := hsame 0 _ (hI 0 g h) hs
      rw [if_neg Bool.false_ne_true, run_repeatFrom_succ, if_pos hs, if_pos hd']
      exact ⟨_, rfl⟩
  | succ k ih =>
    obtain ⟨n, rfl⟩ := Nat.exists_eq_add_of_le' hn
    rw [show n + (k + 1 + 2) = (n + (k + 2)) + 1 from rfl, run_repeatFrom_succ]
    split
    · next hs =>
      rw [if_pos (hsame _ g h hs)]
      exact ⟨_, rfl⟩
    · rw [if_neg Bool.false_ne_true]
      cases hd : (pass g).2 with
      | false => exact ih (i + 1) (hI _ g h) (Nat.le_add_left _ _)
      | true =>
        have hs := hdone _ g h hd
        have hd' := hsame _ _ (hI _ g h) hs
        rw [show n + (k + 2) = (n + (k + 1)) + 1 from rfl, run_repeatFrom_succ, if_pos hs,
          if_pos hd']
        exact ⟨_, rfl⟩

end Stage

end SchemaTypes

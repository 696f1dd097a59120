import Mathlib.Data.List.Basic
import Mathlib.Data.List.Infix
import Mathlib.Tactic.Common

/-!
# Deterministic systems and the states of their runs

A `System` has states, labels, the labels that can happen in a state (`enabled`) and what each of
them does (`next`). A run is the list of its labels, oldest first; `after s ls` is the state it
ends in, and the states it passes are those after its prefixes.

* `Run s ls`: every label of `ls` is enabled when it happens.
* `Along s ls P`: `P` holds of every state that the run passes.
* `Steps s ls ok`: every step `(state before, label)` of the run meets `ok`.

`along_of_steps` is the invariant rule for runs whose steps all meet a condition, and
`along_iff_steps` the rule for a condition that is exact: a step that does not meet it leaves a
state without the property. `run_image` is the rule for two systems: if every step of the one is
some steps of the other, up to a relation of their states, so is every run.
-/

/-- A deterministic labelled transition system. -/
structure System (σ α : Type) where
  enabled : σ → α → Prop
  next : σ → α → σ

namespace System

variable {σ α : Type} (S : System σ α)

/-- The state after the labels `ls`. -/
def after (s : σ) (ls : List α) : σ := ls.foldl S.next s

/-- Every step of the run, given by the state before it and its label, meets `ok`. -/
def Steps (s : σ) (ls : List α) (ok : σ → α → Prop) : Prop :=
  ∀ pre l, pre ++ [l] <+: ls → ok (S.after s pre) l

/-- Every label is enabled in the state in which it happens. -/
def Run (s : σ) (ls : List α) : Prop := S.Steps s ls S.enabled

/-- `P` holds of every state that the run passes, its first and its last one included. -/
def Along (s : σ) (ls : List α) (P : σ → Prop) : Prop := ∀ pre, pre <+: ls → P (S.after s pre)

variable {S}

@[simp] theorem after_nil (s : σ) : S.after s [] = s := rfl

@[simp] theorem after_snoc (s : σ) (ls : List α) (l : α) :
    S.after s (ls ++ [l]) = S.next (S.after s ls) l := by
  simp [after]

@[simp] theorem after_cons (s : σ) (l : α) (ls : List α) :
    S.after s (l :: ls) = S.after (S.next s l) ls := rfl

theorem steps_nil {s : σ} {ok : σ → α → Prop} : S.Steps s [] ok := fun pre l hp => by
  have := hp.length_le
  simp at this

theorem steps_cons {s : σ} {l : α} {ls : List α} {ok : σ → α → Prop} :
    S.Steps s (l :: ls) ok ↔ ok s l ∧ S.Steps (S.next s l) ls ok := by
  constructor
  · intro h
    exact ⟨h [] l (by simp), fun pre l' hp => h (l :: pre) l' (by simpa using hp)⟩
  · rintro ⟨hl, hls⟩ pre l' hp
    cases pre with
    | nil =>
      obtain ⟨rfl, -⟩ : l' = l ∧ [] <+: ls := by simpa [List.cons_prefix_cons] using hp
      exact hl
    | cons a pre =>
      obtain ⟨rfl, hpre⟩ := List.cons_prefix_cons.mp hp
      exact hls pre l' hpre

theorem steps_snoc {s : σ} {ls : List α} {l : α} {ok : σ → α → Prop} :
    S.Steps s (ls ++ [l]) ok ↔ S.Steps s ls ok ∧ ok (S.after s ls) l := by
  constructor
  · intro h
    exact ⟨fun pre l' hp => h pre l' (hp.trans (List.prefix_append ls [l])),
      h ls l (List.prefix_refl _)⟩
  · rintro ⟨hls, hl⟩ pre l' hp
    rcases List.prefix_concat_iff.mp hp with he | hlt
    · obtain ⟨rfl, hl'⟩ := List.append_inj' he rfl
      obtain rfl : l' = l := by simpa using hl'
      exact hl
    · exact hls pre l' hlt

/-- A condition on the steps that can be decided can be decided of a run. -/
instance decidableSteps {ok : σ → α → Prop} [∀ s l, Decidable (ok s l)] :
    (s : σ) → (ls : List α) → Decidable (S.Steps s ls ok)
  | _, [] => isTrue steps_nil
  | s, l :: ls =>
    have : Decidable (S.Steps (S.next s l) ls ok) := decidableSteps (S.next s l) ls
    decidable_of_iff (ok s l ∧ S.Steps (S.next s l) ls ok) steps_cons.symm

instance decidableRun [∀ s l, Decidable (S.enabled s l)] (s : σ) (ls : List α) :
    Decidable (S.Run s ls) :=
  inferInstanceAs (Decidable (S.Steps s ls S.enabled))

theorem along_cons {s : σ} {l : α} {ls : List α} {P : σ → Prop} :
    S.Along s (l :: ls) P ↔ P s ∧ S.Along (S.next s l) ls P := by
  constructor
  · intro h
    exact ⟨h [] List.nil_prefix, fun pre hp => h (l :: pre) (List.cons_prefix_cons.mpr ⟨rfl, hp⟩)⟩
  · rintro ⟨h0, h⟩ pre hp
    cases pre with
    | nil => exact h0
    | cons l' pre =>
      obtain ⟨rfl, hpre⟩ := List.cons_prefix_cons.mp hp
      exact h pre hpre

instance decidableAlong {P : σ → Prop} [∀ s, Decidable (P s)] :
    (s : σ) → (ls : List α) → Decidable (S.Along s ls P)
  | s, [] => decidable_of_iff (P s) <| by simp [Along]
  | s, l :: ls =>
    have : Decidable (S.Along (S.next s l) ls P) := decidableAlong (S.next s l) ls
    decidable_of_iff (P s ∧ S.Along (S.next s l) ls P) along_cons.symm

theorem Along.last {s : σ} {ls : List α} {P : σ → Prop} (h : S.Along s ls P) : P (S.after s ls) :=
  h ls (List.prefix_refl ls)

theorem Along.mono {s : σ} {ls : List α} {P Q : σ → Prop} (h : S.Along s ls P)
    (hPQ : ∀ s, P s → Q s) : S.Along s ls Q :=
  fun pre hp => hPQ _ (h pre hp)

theorem Along.and {s : σ} {ls : List α} {P Q : σ → Prop} (h : S.Along s ls P)
    (h' : S.Along s ls Q) : S.Along s ls fun s => P s ∧ Q s :=
  fun pre hp => ⟨h pre hp, h' pre hp⟩

theorem Steps.mono {s : σ} {ls : List α} {ok ok' : σ → α → Prop} (h : S.Steps s ls ok)
    (hk : ∀ s l, ok s l → ok' s l) : S.Steps s ls ok' :=
  fun pre l hp => hk _ _ (h pre l hp)

/-- **The invariant rule.** A property that holds at the start and that every step of the run
keeps holds of every state that the run passes. -/
theorem along_of_steps {s : σ} {ls : List α} {I : σ → Prop} {ok : σ → α → Prop} (h0 : I s)
    (hstep : ∀ s l, I s → ok s l → I (S.next s l)) (h : S.Steps s ls ok) : S.Along s ls I := by
  intro pre
  induction pre using List.reverseRecOn with
  | nil => exact fun _ => h0
  | append_singleton pre l ih =>
    intro hp
    rw [after_snoc]
    exact hstep _ _ (ih ((List.prefix_append pre [l]).trans hp)) (h pre l hp)

/-- An invariant of every run. -/
theorem along_of_run {s : σ} {ls : List α} {I : σ → Prop} (h0 : I s)
    (hstep : ∀ s l, I s → S.enabled s l → I (S.next s l)) (h : S.Run s ls) : S.Along s ls I :=
  along_of_steps h0 hstep h

/-- What holds of every state of a run before a step holds of the steps. -/
theorem Along.steps {s : σ} {ls : List α} {P : σ → Prop} (h : S.Along s ls P) :
    S.Steps s ls fun s _ => P s :=
  fun pre l hp => h pre ((List.prefix_append pre [l]).trans hp)

theorem Steps.and {s : σ} {ls : List α} {ok ok' : σ → α → Prop} (h : S.Steps s ls ok)
    (h' : S.Steps s ls ok') : S.Steps s ls fun s l => ok s l ∧ ok' s l :=
  fun pre l hp => ⟨h pre l hp, h' pre l hp⟩

/-- **The rule for an exact condition.** The steps of the run are `given` ones, such as enabled
ones. `I` is an invariant of the given steps that meet `ok` and gives `P`; a given step from `I`
that does not meet `ok` leaves a state without `P`. Then `P` holds along the run exactly when all
its steps meet `ok`. -/
theorem along_iff_steps {s : σ} {ls : List α} {I P : σ → Prop} {given ok : σ → α → Prop} (h0 : I s)
    (hP : ∀ s, I s → P s)
    (hstep : ∀ s l, I s → given s l → ok s l → I (S.next s l))
    (hbad : ∀ s l, I s → given s l → P (S.next s l) → ok s l)
    (hrun : S.Steps s ls given) : S.Along s ls P ↔ S.Steps s ls ok := by
  constructor
  · intro h
    -- By induction on the prefix: all steps up to it meet `ok`, so `I` holds before the next.
    have key : ∀ pre, pre <+: ls → I (S.after s pre) ∧ S.Steps s pre ok := by
      intro pre
      induction pre using List.reverseRecOn with
      | nil =>
        exact fun _ => ⟨h0, steps_nil⟩
      | append_singleton pre l ih =>
        intro hp
        obtain ⟨hI, hs⟩ := ih ((List.prefix_append pre [l]).trans hp)
        have hok : ok (S.after s pre) l := by
          refine hbad _ _ hI (hrun pre l hp) ?_
          rw [← after_snoc]
          exact h _ hp
        exact ⟨by rw [after_snoc]; exact hstep _ _ hI (hrun pre l hp) hok,
          steps_snoc.mpr ⟨hs, hok⟩⟩
    exact (key ls (List.prefix_refl ls)).2
  · intro h
    exact (along_of_steps h0 (fun s l hI hl => hstep s l hI hl.1 hl.2) (hrun.and h)).mono hP

/-! ## Two systems -/

theorem after_append (s : σ) (ls ls' : List α) :
    S.after s (ls ++ ls') = S.after (S.after s ls) ls' := by
  simp [after]

theorem steps_append {s : σ} {ls ls' : List α} {ok : σ → α → Prop} :
    S.Steps s (ls ++ ls') ok ↔ S.Steps s ls ok ∧ S.Steps (S.after s ls) ls' ok := by
  induction ls generalizing s with
  | nil => simp [steps_nil]
  | cons l ls ih => rw [List.cons_append, steps_cons, ih, steps_cons, after_cons, and_assoc]

variable {τ β : Type} {T : System τ β}

/-- The labels that stand for those of a run, label by label. -/
def image (T : System τ β) (f : τ → β → List α) : τ → List β → List α
  | _, [] => []
  | t, m :: ms => f t m ++ T.image f (T.next t m) ms

/-- **The rule for a refinement.** If every step of `T` that meets `ok` is the run of `S` that `f`
gives for it, up to `R`, then every run of `T` whose steps meet `ok` is a run of `S`. -/
theorem run_image {R : σ → τ → Prop} {ok : τ → β → Prop} {f : τ → β → List α}
    (hstep : ∀ s t m, R s t → ok t m → S.Run s (f t m) ∧ R (S.after s (f t m)) (T.next t m))
    {s : σ} {t : τ} (h0 : R s t) {ms : List β} (h : T.Steps t ms ok) :
    S.Run s (T.image f t ms) ∧ R (S.after s (T.image f t ms)) (T.after t ms) := by
  induction ms generalizing s t with
  | nil => exact ⟨steps_nil, h0⟩
  | cons m ms ih =>
    obtain ⟨hm, hms⟩ := steps_cons.mp h
    obtain ⟨hrun, hR⟩ := hstep s t m h0 hm
    obtain ⟨hrun', hR'⟩ := ih hR hms
    exact ⟨steps_append.mpr ⟨hrun, hrun'⟩, by rwa [image, after_append]⟩

theorem image_snoc (f : τ → β → List α) (t : τ) (ms : List β) (m : β) :
    T.image f t (ms ++ [m]) = T.image f t ms ++ f (T.after t ms) m := by
  induction ms generalizing t with
  | nil => exact List.append_nil _
  | cons m' ms ih => rw [List.cons_append, image, ih, image, List.append_assoc, after_cons]

/-- Labels that do not depend on the state. -/
theorem image_eq_flatMap (f : β → List α) (t : τ) (ms : List β) :
    T.image (fun _ => f) t ms = ms.flatMap f := by
  induction ms generalizing t with
  | nil => rfl
  | cons m ms ih => rw [image, ih, List.flatMap_cons]

end System

import Vitamine.Lib.System

/-!
# Copies of a value that comes in and out of view

A watcher keeps a copy of a value of the states of a system. A step introduces the value to it,
tells it of a change in its view, lets it miss one out of its view, or changes nothing; what is in
view comes and goes with any step.

* `Watch.Moves`: what a step may do.
* `Watch.OutOfView`: a stretch of a run with the value in view at its start only.
* `Watch.along_agrees_iff`: the copy is right in view if and only if all introductions are right and
  the value is the same whenever it comes back into view.
-/

/-- A value, the copy of a watcher, when the value is in view, and when the copy counts. -/
structure Watch (σ V : Type) where
  value : σ → V
  copy : σ → V
  sees : σ → Prop
  shown : σ → Prop

namespace Watch

variable {σ α V : Type} (W : Watch σ V)

/-- What is shown and in view is shown as it is. -/
def Agrees (s : σ) : Prop := W.sees s → W.shown s → W.copy s = W.value s

/-- The step shows only what was shown, as it was shown. -/
def Keeps (s s' : σ) : Prop := W.shown s' → W.shown s ∧ W.copy s' = W.copy s

/-- What a step may do. `introduces` says that it introduces the value. -/
inductive Moves (introduces : Prop) (s s' : σ) : Prop where
  | introduced (h : introduces)
  | told (hsees : W.sees s) (hsees' : W.sees s') (hshown : W.shown s' → W.shown s)
      (hcopy : W.copy s' = W.value s')
  | missed (hsees : ¬ W.sees s) (hsees' : ¬ W.sees s') (hkeeps : W.Keeps s s')
  | silent (hvalue : W.value s' = W.value s) (hkeeps : W.Keeps s s')

/-- Where a step starts matters only by what the watcher has and sees there. -/
theorem Moves.of_same {introduces : Prop} {s t s' : σ} (h : W.Moves introduces t s')
    (hvalue : W.value t = W.value s) (hcopy : W.copy t = W.copy s) (hsees : W.sees t ↔ W.sees s)
    (hshown : W.shown t ↔ W.shown s) : W.Moves introduces s s' := by
  have hkeeps : W.Keeps t s' → W.Keeps s s' := fun hk hs => by
    obtain ⟨hs', hc⟩ := hk hs
    exact ⟨hshown.mp hs', hc.trans hcopy⟩
  cases h with
  | introduced h => exact .introduced h
  | told hs hs' hsh hc => exact .told (hsees.mp hs) hs' (fun h => hshown.mp (hsh h)) hc
  | missed hs hs' hk => exact .missed (fun h => hs (hsees.mpr h)) hs' (hkeeps hk)
  | silent hv hk => exact .silent (hv.trans hvalue) (hkeeps hk)

variable (S : System σ α) (s : σ)

/-- The value is in view after `start`, and out of view from then on until `pre`. -/
structure OutOfView (start pre : List α) : Prop where
  isPrefix : start <+: pre
  sees : W.sees (S.after s start)
  hidden : ∀ mid, start <+: mid → mid <+: pre → mid ≠ start → ¬ W.sees (S.after s mid)

/-- What comes back into view, and is not introduced again, is as it was when it went out of it. -/
def ReturnsUnchanged (introduces : σ → α → Prop) (ls : List α) : Prop :=
  ∀ start pre l, pre ++ [l] <+: ls → W.OutOfView S s start pre → W.sees (S.after s (pre ++ [l])) →
    W.shown (S.after s (pre ++ [l])) → ¬ introduces (S.after s pre) l →
      W.value (S.after s start) = W.value (S.after s pre)

variable {W S s} {introduces : σ → α → Prop} {ls : List α}

theorem OutOfView.refl {pre : List α} (h : W.sees (S.after s pre)) : W.OutOfView S s pre pre where
  isPrefix := List.prefix_refl pre
  sees := h
  hidden _ hmid hmid' hne := absurd (hmid'.eq_of_length_le hmid.length_le) hne

theorem OutOfView.snoc {start pre : List α} {l : α} (h : W.OutOfView S s start pre)
    (hl : ¬ W.sees (S.after s (pre ++ [l]))) : W.OutOfView S s start (pre ++ [l]) where
  isPrefix := h.isPrefix.trans (List.prefix_append pre [l])
  sees := h.sees
  hidden mid hmid hmid' hne := by
    rcases List.prefix_concat_iff.mp hmid' with rfl | hpre
    · exact hl
    · exact h.hidden mid hmid hpre hne

/-- Nothing is between the two ends of a stretch that ends in view. -/
theorem OutOfView.eq {start pre : List α} (h : W.OutOfView S s start pre)
    (hpre : W.sees (S.after s pre)) : start = pre := by
  by_contra hne
  exact h.hidden pre h.isPrefix (List.prefix_refl pre) (Ne.symm hne) hpre

section Runs

variable (h0 : ¬ W.shown s)
  (hmoves : ∀ pre l, pre ++ [l] <+: ls →
    W.Moves (introduces (S.after s pre) l) (S.after s pre) (S.after s (pre ++ [l])))
  (hintroduces : ∀ pre l, pre ++ [l] <+: ls → introduces (S.after s pre) l →
    W.sees (S.after s (pre ++ [l])) ∧ W.shown (S.after s (pre ++ [l])))

include hmoves hintroduces

/-- Out of view, what is shown is shown as it was. -/
theorem OutOfView.keeps {start pre : List α} (h : W.OutOfView S s start pre) (hpre : pre <+: ls)
    (hshown : W.shown (S.after s pre)) :
    W.shown (S.after s start) ∧ W.copy (S.after s pre) = W.copy (S.after s start) := by
  induction pre using List.reverseRecOn with
  | nil =>
    obtain rfl := List.prefix_nil.mp h.isPrefix
    exact ⟨hshown, rfl⟩
  | append_singleton pre l ih =>
    rcases List.prefix_concat_iff.mp h.isPrefix with rfl | hstart
    · exact ⟨hshown, rfl⟩
    · have hne : pre ++ [l] ≠ start := by
        rintro rfl
        have hle := hstart.length_le
        rw [List.length_append, List.length_singleton] at hle
        omega
      have hhidden := h.hidden _ h.isPrefix (List.prefix_refl _) hne
      have hout : W.OutOfView S s start pre :=
        ⟨hstart, h.sees, fun mid hmid hmid' =>
          h.hidden mid hmid (hmid'.trans (List.prefix_append pre [l]))⟩
      have hkeeps : W.Keeps (S.after s pre) (S.after s (pre ++ [l])) := by
        cases hmoves pre l hpre with
        | introduced hl => exact absurd (hintroduces pre l hpre hl).1 hhidden
        | told _ hsees' => exact absurd hsees' hhidden
        | missed _ _ hkeeps => exact hkeeps
        | silent _ hkeeps => exact hkeeps
      obtain ⟨hold, hcopy⟩ := hkeeps hshown
      obtain ⟨hfirst, hcopy'⟩ := ih hout ((List.prefix_append pre [l]).trans hpre) hold
      exact ⟨hfirst, hcopy.trans hcopy'⟩

include h0

/-- What is shown is shown as it was when it was in view for the last time. -/
theorem lastSeen (hright : ∀ pre l, pre ++ [l] <+: ls → introduces (S.after s pre) l →
      W.copy (S.after s (pre ++ [l])) = W.value (S.after s (pre ++ [l])))
    (hreturns : W.ReturnsUnchanged S s introduces ls) (pre : List α) (hpre : pre <+: ls)
    (hshown : W.shown (S.after s pre)) :
    ∃ start, W.OutOfView S s start pre ∧ W.copy (S.after s pre) = W.value (S.after s start) := by
  induction pre using List.reverseRecOn with
  | nil => exact absurd hshown h0
  | append_singleton pre l ih =>
    have hpre' : pre <+: ls := (List.prefix_append pre [l]).trans hpre
    -- In view, the copy is that of the value as it is now.
    have hnow : W.sees (S.after s (pre ++ [l])) →
        W.copy (S.after s (pre ++ [l])) = W.value (S.after s (pre ++ [l])) →
        ∃ start, W.OutOfView S s start (pre ++ [l]) ∧
          W.copy (S.after s (pre ++ [l])) = W.value (S.after s start) :=
      fun hsees hcopy => ⟨_, .refl hsees, hcopy⟩
    by_cases hl : introduces (S.after s pre) l
    · exact hnow (hintroduces pre l hpre hl).1 (hright pre l hpre hl)
    · cases hmoves pre l hpre with
      | introduced h => exact absurd h hl
      | told _ hsees' _ hcopy => exact hnow hsees' hcopy
      | missed _ hsees' hkeeps =>
        obtain ⟨hold, hcopy⟩ := hkeeps hshown
        obtain ⟨start, hout, hstart⟩ := ih hpre' hold
        exact ⟨start, hout.snoc hsees', hcopy.trans hstart⟩
      | silent hvalue hkeeps =>
        obtain ⟨hold, hcopy⟩ := hkeeps hshown
        obtain ⟨start, hout, hstart⟩ := ih hpre' hold
        by_cases hsees' : W.sees (S.after s (pre ++ [l]))
        · refine hnow hsees' ?_
          rw [hcopy, hstart, hvalue]
          exact hreturns start pre l hpre hout hsees' hshown hl
        · exact ⟨start, hout.snoc hsees', hcopy.trans hstart⟩

/-- **The copy is right in view** if and only if all introductions are right and what comes back
into view is as it was when it went out of it. -/
theorem along_agrees_iff : S.Along s ls W.Agrees ↔
    (∀ pre l, pre ++ [l] <+: ls → introduces (S.after s pre) l →
      W.copy (S.after s (pre ++ [l])) = W.value (S.after s (pre ++ [l]))) ∧
    W.ReturnsUnchanged S s introduces ls := by
  constructor
  · intro h
    refine ⟨fun pre l hpre hl => ?_, fun start pre l hpre hout hsees' hshown' hl => ?_⟩
    · obtain ⟨hsees, hshown⟩ := hintroduces pre l hpre hl
      exact h _ hpre hsees hshown
    · have hpre' : pre <+: ls := (List.prefix_append pre [l]).trans hpre
      by_cases hsees : W.sees (S.after s pre)
      · rw [hout.eq hsees]
      · have hagrees := h _ hpre hsees' hshown'
        cases hmoves pre l hpre with
        | introduced hl' => exact absurd hl' hl
        | told hsees' => exact absurd hsees' hsees
        | missed _ hno => exact absurd hsees' hno
        | silent hvalue hkeeps =>
          obtain ⟨hold, hcopy⟩ := hkeeps hshown'
          obtain ⟨hfirst, hcopy'⟩ := hout.keeps hmoves hintroduces hpre' hold
          calc W.value (S.after s start) = W.copy (S.after s start) :=
                (h start (hout.isPrefix.trans hpre') hout.sees hfirst).symm
            _ = W.copy (S.after s pre) := hcopy'.symm
            _ = W.copy (S.after s (pre ++ [l])) := hcopy.symm
            _ = W.value (S.after s (pre ++ [l])) := hagrees
            _ = W.value (S.after s pre) := hvalue
  · rintro ⟨hright, hreturns⟩ pre hpre hsees hshown
    obtain ⟨start, hout, hcopy⟩ :=
      lastSeen h0 hmoves hintroduces hright hreturns pre hpre hshown
    rwa [hout.eq hsees] at hcopy

end Runs

end Watch

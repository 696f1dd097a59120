import Mathlib.Data.List.Basic
import Mathlib.Data.List.Infix
import Mathlib.Tactic.Common

/-!
# Registers over a log, and what comes before its events

A log is a list of events, oldest first, and some of the events write a register: `write e` is the
value that `e` writes, if it writes one. `last write init log` is the value of the register after
the log.

* `last_append`: a log goes on from the value of its first part.
* `last_of_silent`, `last_of_writes`: what a stretch of the log does that writes nothing, or
  nothing but one value.
* `last_map`: what a stretch does that has one event for each of some keys.
* `Sometime ok log`, `Always ok log`: an event, or every event, meets a condition that looks at what
  came before it; `always_append_map` is the rule for a stretch of the log.
-/

namespace Log

variable {E V : Type}

/-- The last value that is written, `init` if there is none. -/
def last (write : E → Option V) (init : V) (log : List E) : V :=
  log.foldl (fun v e => (write e).getD v) init

variable {write : E → Option V} {init v : V} {log : List E}

@[simp] theorem last_nil : last write init [] = init := rfl

@[simp] theorem last_cons (e : E) :
    last write init (e :: log) = last write ((write e).getD init) log :=
  rfl

@[simp] theorem last_append (log' : List E) :
    last write init (log ++ log') = last write (last write init log) log' := by
  simp [last]

theorem last_of_silent (h : ∀ e ∈ log, write e = none) : last write init log = init := by
  induction log with
  | nil => rfl
  | cons e log ih =>
    obtain ⟨he, hlog⟩ := List.forall_mem_cons.mp h
    rw [last_cons, he]
    exact ih hlog

/-- A stretch that writes `v` somewhere and no other value leaves `v`. -/
theorem last_of_writes (h : ∀ e ∈ log, write e = none ∨ write e = some v)
    (hv : ∃ e ∈ log, write e = some v) : last write init log = v := by
  induction log generalizing init with
  | nil =>
    obtain ⟨e, he, -⟩ := hv
    cases he
  | cons e log ih =>
    obtain ⟨he, hlog⟩ := List.forall_mem_cons.mp h
    rw [last_cons]
    by_cases htail : ∃ e ∈ log, write e = some v
    · exact ih hlog htail
    · have hnone : ∀ e ∈ log, write e = none := fun e hmem =>
        (hlog e hmem).resolve_right fun hw => htail ⟨e, hmem, hw⟩
      obtain ⟨e', he', hw⟩ := hv
      rcases List.mem_cons.mp he' with rfl | hmem
      · rw [hw]
        exact last_of_silent hnone
      · exact absurd ⟨e', hmem, hw⟩ htail

/-- A stretch with one event for each of some keys, of which the one for `k` writes. -/
theorem last_map {K : Type} [DecidableEq K] {event : K → E} {k : K} (ks : List K)
    (h : ∀ d, write (event d) = if d = k then some v else none) :
    last write init (ks.map event) = if k ∈ ks then v else init := by
  by_cases hk : k ∈ ks
  · rw [if_pos hk]
    refine last_of_writes (List.forall_mem_map.mpr fun d _ => ?_) ⟨_, List.mem_map_of_mem hk, ?_⟩
    · rw [h]
      split <;> simp
    · rw [h, if_pos rfl]
  · rw [if_neg hk]
    refine last_of_silent (List.forall_mem_map.mpr fun d hd => ?_)
    have hne : d ≠ k := fun he => hk (he ▸ hd)
    rw [h, if_neg hne]

/-! ## Events and what came before them -/

/-- Some event of the log meets `ok`, which may look at what came before it. -/
def Sometime (ok : List E → E → Prop) (log : List E) : Prop :=
  ∃ pre e, pre ++ [e] <+: log ∧ ok pre e

/-- Every event of the log meets `ok`, which may look at what came before it. -/
def Always (ok : List E → E → Prop) (log : List E) : Prop :=
  ∀ pre e, pre ++ [e] <+: log → ok pre e

section Events

variable {ok : List E → E → Prop} {log' : List E} {e : E}

theorem prefix_snoc_iff {pre : List E} {e' : E} :
    pre ++ [e'] <+: log ++ [e] ↔ pre ++ [e'] <+: log ∨ pre = log ∧ e' = e := by
  rw [List.prefix_concat_iff, or_comm]
  simp

@[simp] theorem sometime_nil : ¬ Sometime ok ([] : List E) := by
  rintro ⟨pre, e, hp, -⟩
  simpa using hp.length_le

theorem sometime_snoc : Sometime ok (log ++ [e]) ↔ Sometime ok log ∨ ok log e := by
  constructor
  · rintro ⟨pre, e', hp, hok⟩
    rcases prefix_snoc_iff.mp hp with hp | ⟨rfl, rfl⟩
    · exact .inl ⟨pre, e', hp, hok⟩
    · exact .inr hok
  · rintro (⟨pre, e', hp, hok⟩ | hok)
    · exact ⟨pre, e', prefix_snoc_iff.mpr (.inl hp), hok⟩
    · exact ⟨log, e, List.prefix_refl _, hok⟩

/-- Events that never meet `ok` make no difference. -/
theorem sometime_append (h : ∀ pre, ∀ e ∈ log', ¬ ok pre e) :
    Sometime ok (log ++ log') ↔ Sometime ok log := by
  induction log' using List.reverseRecOn with
  | nil => rw [List.append_nil]
  | append_singleton log' e ih =>
    rw [← List.append_assoc, sometime_snoc, ih fun pre e' he => h pre e' (by simp [he])]
    exact or_iff_left (h _ e (by simp))

theorem always_nil : Always ok ([] : List E) := fun pre e hp => by
  simpa using hp.length_le

theorem always_snoc : Always ok (log ++ [e]) ↔ Always ok log ∧ ok log e := by
  constructor
  · exact fun h => ⟨fun pre e' hp => h pre e' (prefix_snoc_iff.mpr (.inl hp)),
      h log e (List.prefix_refl _)⟩
  · rintro ⟨h, he⟩ pre e' hp
    rcases prefix_snoc_iff.mp hp with hp | ⟨rfl, rfl⟩
    · exact h pre e' hp
    · exact he

/-- A stretch of events that each meet `ok` after what came before them. -/
theorem always_append_map {F : Type} {event : F → E} {ks : List F}
    (h : ∀ pre k, pre ++ [k] <+: ks → ok (log ++ pre.map event) (event k)) :
    Always ok (log ++ ks.map event) ↔ Always ok log := by
  induction ks using List.reverseRecOn with
  | nil => rw [List.map_nil, List.append_nil]
  | append_singleton ks k ih =>
    rw [List.map_append, ← List.append_assoc, List.map_singleton, always_snoc,
      ih fun pre k' hp => h pre k' (hp.trans (List.prefix_append _ _))]
    exact and_iff_left (h ks k (List.prefix_refl _))

theorem Always.of_append (h : Always ok (log ++ log')) : Always ok log :=
  fun pre e hp => h pre e (hp.trans (List.prefix_append _ _))

theorem Always.getElem (h : Always ok log) (i : Nat) (hi : i < log.length) :
    ok (log.take i) log[i] := by
  refine h _ _ ?_
  rw [List.take_append_getElem hi]
  exact List.take_prefix _ _

theorem Always.of_getElem? (h : Always ok log) {i : Nat} (he : log[i]? = some e) :
    ok (log.take i) e := by
  obtain ⟨hi, rfl⟩ := List.getElem?_eq_some_iff.mp he
  exact h.getElem i hi

theorem mem_take_of_getElem? {i j : Nat} (hij : i < j) (he : log[i]? = some e) :
    e ∈ log.take j :=
  List.mem_of_getElem? (by rw [List.getElem?_take_of_lt hij, he])

end Events

end Log

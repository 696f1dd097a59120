import Mathlib.Algebra.BigOperators.Fin
import Mathlib.Data.Fintype.BigOperators
import Mathlib.Data.List.Nodup
import Mathlib.Order.Preorder.Finite
import Vitamine.Lib.System

/-!
# Threads that take mutexes

A thread is a list of operations: it locks and unlocks mutexes, and uses what they guard. A step is
one operation of one thread; a lock waits until nobody has the mutex, its own thread included.

* `Disciplined`: the mutexes are taken in the order of a rank, nothing that is `kept` is used while
  it is not locked, and everything is given back.
* `Safe.exclusive`: of disciplined threads, no two use the same at once, if it is kept.
* `Safe.progress`: one of them can go on, as long as they are not all done.
* `length_of_run`: and they come to an end.
-/

open System

namespace Mutex

variable {M T : Type}

inductive Op (M : Type) where
  | lock (m : M)
  | use (m : M)
  | unlock (m : M)
  deriving DecidableEq

/-- What is locked, used and given back from where `held` is held, the last first. -/
def Disciplined [DecidableEq M] (rank : M → Nat) (kept : M → Prop) : List M → List (Op M) → Prop
  | held, [] => held = []
  | held, .lock m :: ops => (∀ m' ∈ held, rank m' < rank m) ∧ Disciplined rank kept (m :: held) ops
  | held, .use m :: ops => (kept m → m ∈ held) ∧ Disciplined rank kept held ops
  | held, .unlock m :: ops => m ∈ held ∧ Disciplined rank kept (held.erase m) ops

/-- The mutexes that each thread holds, and what it has still to do. -/
structure Threads (T M : Type) where
  held : T → List M
  todo : T → List (Op M)

/-- Threads that hold nothing yet. -/
def start (programs : T → List (Op M)) : Threads T M := ⟨fun _ => [], programs⟩

def threads [DecidableEq T] [DecidableEq M] : System (Threads T M) T where
  enabled s t := match s.todo t with
    | [] => False
    | .lock m :: _ => ∀ t', m ∉ s.held t'
    | _ :: _ => True
  next s t := match s.todo t with
    | [] => s
    | .lock m :: ops =>
      ⟨Function.update s.held t (m :: s.held t), Function.update s.todo t ops⟩
    | .use _ :: ops => ⟨s.held, Function.update s.todo t ops⟩
    | .unlock m :: ops =>
      ⟨Function.update s.held t ((s.held t).erase m), Function.update s.todo t ops⟩

/-- The next operation of the thread is on what the mutex guards. -/
def Uses (s : Threads T M) (t : T) (m : M) : Prop := ∃ ops, s.todo t = .use m :: ops

/-- Every thread is disciplined, and no mutex is held twice. -/
structure Safe [DecidableEq M] (rank : M → Nat) (kept : M → Prop) (s : Threads T M) : Prop where
  disciplined : ∀ t, Disciplined rank kept (s.held t) (s.todo t)
  nodup : ∀ t, (s.held t).Nodup
  owner : ∀ t t' m, m ∈ s.held t → m ∈ s.held t' → t = t'

section Steps

variable [DecidableEq T] [DecidableEq M] {rank : M → Nat} {kept : M → Prop}
  {s : Threads T M} {t : T} {m : M}
  {ops : List (Op M)}

theorem enabled_of_lock (h : s.todo t = .lock m :: ops) :
    threads.enabled s t ↔ ∀ t', m ∉ s.held t' := by
  unfold threads
  simp only
  rw [h]

theorem enabled_of_use (h : s.todo t = .use m :: ops) : threads.enabled s t := by
  unfold threads
  simp only
  rw [h]
  trivial

theorem enabled_of_unlock (h : s.todo t = .unlock m :: ops) : threads.enabled s t := by
  unfold threads
  simp only
  rw [h]
  trivial

theorem next_of_lock (h : s.todo t = .lock m :: ops) : threads.next s t =
    ⟨Function.update s.held t (m :: s.held t), Function.update s.todo t ops⟩ := by
  unfold threads
  simp only
  rw [h]

theorem next_of_use (h : s.todo t = .use m :: ops) :
    threads.next s t = ⟨s.held, Function.update s.todo t ops⟩ := by
  unfold threads
  simp only
  rw [h]

theorem next_of_unlock (h : s.todo t = .unlock m :: ops) : threads.next s t =
    ⟨Function.update s.held t ((s.held t).erase m), Function.update s.todo t ops⟩ := by
  unfold threads
  simp only
  rw [h]

/-- The thread of a step has something to do, and then one thing less. -/
theorem todo_of_enabled (h : threads.enabled s t) :
    ∃ op ops, s.todo t = op :: ops ∧ (threads.next s t).todo = Function.update s.todo t ops := by
  cases htodo : s.todo t with
  | nil =>
    unfold threads at h
    simp only at h
    rw [htodo] at h
    exact h.elim
  | cons op ops =>
    refine ⟨op, ops, rfl, ?_⟩
    cases op with
    | lock m => rw [next_of_lock htodo]
    | use m => rw [next_of_use htodo]
    | unlock m => rw [next_of_unlock htodo]

/-- Another list of mutexes for one thread, with a program for it. -/
theorem Safe.update (h : Safe rank kept s) {held : List M}
    (hdisciplined : Disciplined rank kept held ops) (hnodup : held.Nodup)
    (howner : ∀ m ∈ held, ∀ t', t' ≠ t → m ∉ s.held t') :
    Safe rank kept ⟨Function.update s.held t held, Function.update s.todo t ops⟩ where
  disciplined t' := by
    simp only
    by_cases ht : t' = t
    · subst ht
      rwa [Function.update_self, Function.update_self]
    · rw [Function.update_of_ne ht, Function.update_of_ne ht]
      exact h.disciplined t'
  nodup t' := by
    simp only
    by_cases ht : t' = t
    · subst ht
      rwa [Function.update_self]
    · rw [Function.update_of_ne ht]
      exact h.nodup t'
  owner t₁ t₂ m h₁ h₂ := by
    simp only at h₁ h₂
    by_cases ht₁ : t₁ = t <;> by_cases ht₂ : t₂ = t
    · rw [ht₁, ht₂]
    · subst ht₁
      rw [Function.update_self] at h₁
      rw [Function.update_of_ne ht₂] at h₂
      exact absurd h₂ (howner m h₁ t₂ ht₂)
    · subst ht₂
      rw [Function.update_self] at h₂
      rw [Function.update_of_ne ht₁] at h₁
      exact absurd h₁ (howner m h₂ t₁ ht₁)
    · rw [Function.update_of_ne ht₁] at h₁
      rw [Function.update_of_ne ht₂] at h₂
      exact h.owner t₁ t₂ m h₁ h₂

/-- **The step lemma.** -/
theorem Safe.next (h : Safe rank kept s) (he : threads.enabled s t) :
    Safe rank kept (threads.next s t) := by
  obtain ⟨op, ops, htodo, -⟩ := todo_of_enabled he
  have hd := h.disciplined t
  rw [htodo] at hd
  cases op with
  | lock m =>
    have hfree := (enabled_of_lock htodo).mp he
    rw [next_of_lock htodo]
    refine h.update hd.2 (List.nodup_cons.mpr ⟨hfree t, h.nodup t⟩) fun m' hm' t' ht' => ?_
    rcases List.mem_cons.mp hm' with rfl | hm'
    · exact hfree t'
    · exact fun hheld => ht' (h.owner t' t m' hheld hm')
  | use m =>
    have hself : Function.update s.held t (s.held t) = s.held := Function.update_eq_self t s.held
    rw [next_of_use htodo, ← hself]
    exact h.update hd.2 (h.nodup t) fun m' hm' t' ht' hheld => ht' (h.owner t' t m' hheld hm')
  | unlock m =>
    rw [next_of_unlock htodo]
    exact h.update hd.2 ((h.nodup t).erase m) fun m' hm' t' ht' hheld =>
      ht' (h.owner t' t m' hheld (List.mem_of_mem_erase hm'))

omit [DecidableEq T] in
theorem safe_start {programs : T → List (Op M)} (h : ∀ t, Disciplined rank kept [] (programs t)) :
    Safe rank kept (start programs) where
  disciplined := h
  nodup _ := List.nodup_nil
  owner _ _ _ hm := absurd hm List.not_mem_nil

omit [DecidableEq T] in
/-- **Mutual exclusion.** -/
theorem Safe.exclusive (h : Safe rank kept s) {t' : T} (hm : kept m) (hs : Uses s t m)
    (hs' : Uses s t' m) : t = t' := by
  obtain ⟨ops, hops⟩ := hs
  obtain ⟨ops', hops'⟩ := hs'
  have hd := h.disciplined t
  have hd' := h.disciplined t'
  rw [hops] at hd
  rw [hops'] at hd'
  exact h.owner t t' m (hd.1 hm) (hd'.1 hm)

/-- A thread that cannot go on waits for a mutex that a thread has which is not done. -/
theorem Safe.waits (h : Safe rank kept s) (htodo : s.todo t ≠ [])
    (hblocked : ¬ threads.enabled s t) :
    ∃ m ops t', s.todo t = .lock m :: ops ∧ m ∈ s.held t' ∧ s.todo t' ≠ [] := by
  obtain ⟨op, ops, hop⟩ := List.exists_cons_of_ne_nil htodo
  cases op with
  | lock m =>
    rw [enabled_of_lock hop] at hblocked
    obtain ⟨t', ht'⟩ := not_forall.mp hblocked
    have hheld := not_not.mp ht'
    refine ⟨m, ops, t', hop, hheld, fun hnil => ?_⟩
    have hd := h.disciplined t'
    rw [hnil] at hd
    rw [show s.held t' = [] from hd] at hheld
    cases hheld
  | use m => exact absurd (enabled_of_use hop) hblocked
  | unlock m => exact absurd (enabled_of_unlock hop) hblocked

omit [DecidableEq T] in
/-- A thread that waits for a mutex has none of its rank or of a higher one. -/
theorem Safe.rank_lt (h : Safe rank kept s) (hops : s.todo t = .lock m :: ops) {m' : M}
    (hm' : m' ∈ s.held t) : rank m' < rank m := by
  have hd := h.disciplined t
  rw [hops] at hd
  exact hd.1 m' hm'

/-- **Progress.** If no thread could go on, the one that waits for the mutex of the highest rank
would wait for one that waits for a higher one. -/
theorem Safe.progress [Finite T] (h : Safe rank kept s) (htodo : s.todo t ≠ []) :
    ∃ t, threads.enabled s t := by
  by_contra hnone
  have hblocked : ∀ t, ¬ threads.enabled s t := not_exists.mp hnone
  let waiting : Set (T × M) := { x | ∃ ops, s.todo x.1 = .lock x.2 :: ops }
  -- Each thread waits for one mutex at most, so there are finitely many to choose from.
  have hfinite : waiting.Finite := by
    refine Set.Finite.of_finite_image (Set.toFinite (Prod.fst '' waiting)) ?_
    rintro ⟨t₁, m₁⟩ ⟨ops₁, h₁⟩ ⟨t₂, m₂⟩ ⟨ops₂, h₂⟩ ht
    obtain rfl : t₁ = t₂ := ht
    have heq := h₁.symm.trans h₂
    simp only [List.cons.injEq, Op.lock.injEq] at heq
    rw [heq.1]
  obtain ⟨m, ops, -, hop, -⟩ := h.waits htodo (hblocked t)
  obtain ⟨⟨t₁, m₁⟩, ⟨ops₁, hop₁⟩, hmax⟩ :=
    hfinite.exists_maximalFor (fun x => rank x.2) waiting ⟨(t, m), ops, hop⟩
  have hsome : s.todo t₁ ≠ [] := by
    rw [hop₁]
    exact List.cons_ne_nil _ _
  obtain ⟨m', ops', t₂, hop', hheld, htodo₂⟩ := h.waits hsome (hblocked t₁)
  obtain ⟨m₂, ops₂, -, hop₂, -⟩ := h.waits htodo₂ (hblocked t₂)
  have heq := hop₁.symm.trans hop'
  simp only [List.cons.injEq, Op.lock.injEq] at heq
  rw [← heq.1] at hheld
  have hlt : rank m₁ < rank m₂ := h.rank_lt hop₂ hheld
  exact absurd (hmax (j := (t₂, m₂)) ⟨ops₂, hop₂⟩ hlt.le) (Nat.not_le.mpr hlt)

omit [DecidableEq T] in
/-- A thread that is done holds nothing. -/
theorem Safe.held_of_done (h : Safe rank kept s) (hdone : s.todo t = []) : s.held t = [] := by
  have hd := h.disciplined t
  rw [hdone] at hd
  exact hd

end Steps

/-! ## The end of a run -/

section Finish

variable [DecidableEq T] [Fintype T] [DecidableEq M] {rank : M → Nat} {kept : M → Prop}
  {s : Threads T M} {t : T}

instance decidableThreads (s : Threads T M) (t : T) : Decidable (threads.enabled s t) :=
  match h : s.todo t with
  | [] => isFalse fun he => by
      obtain ⟨op, ops, hop, -⟩ := todo_of_enabled he
      rw [h] at hop
      cases hop
  | .lock _ :: _ => decidable_of_iff _ (enabled_of_lock h).symm
  | .use _ :: _ => isTrue (enabled_of_use h)
  | .unlock _ :: _ => isTrue (enabled_of_unlock h)

/-- What all threads have still to do. -/
def pending (s : Threads T M) : Nat := ∑ t, (s.todo t).length

omit [DecidableEq T] [DecidableEq M] in
theorem pending_start (programs : T → List (Op M)) :
    pending (start programs) = ∑ t, (programs t).length := rfl

theorem pending_next (h : threads.enabled s t) : pending (threads.next s t) + 1 = pending s := by
  obtain ⟨op, ops, htodo, hnext⟩ := todo_of_enabled h
  unfold pending
  rw [hnext]
  have hupdate : ∀ t', (Function.update s.todo t ops t').length =
      Function.update (fun t' => (s.todo t').length) t ops.length t' :=
    fun t' => Function.apply_update (fun _ => List.length) s.todo t ops t'
  simp only [hupdate]
  rw [Finset.sum_update_of_mem (Finset.mem_univ t), Finset.sum_eq_add_sum_sdiff_singleton_of_mem
    (Finset.mem_univ t) fun t' => (s.todo t').length, htodo, List.length_cons]
  omega

/-- Each step of a run does one thing of what there is to do. -/
theorem length_of_run {ls : List T} (h : threads.Run s ls) :
    ls.length + pending (threads.after s ls) = pending s := by
  induction ls generalizing s with
  | nil => exact Nat.zero_add _
  | cons t ls ih =>
    obtain ⟨ht, hls⟩ := steps_cons.mp h
    have hnext := pending_next ht
    have hrest := ih hls
    rw [after_cons, List.length_cons]
    omega

/-- **Disciplined threads can always come to their ends.** -/
theorem Safe.finish (h : Safe rank kept s) :
    ∃ ls, threads.Run s ls ∧ ∀ t, (threads.after s ls).todo t = [] := by
  induction hn : pending s generalizing s with
  | zero =>
    refine ⟨[], steps_nil, fun t => List.length_eq_zero_iff.mp ?_⟩
    exact (Finset.sum_eq_zero_iff.mp hn) t (Finset.mem_univ t)
  | succ n ih =>
    by_cases hdone : ∀ t, s.todo t = []
    · exact ⟨[], steps_nil, hdone⟩
    · obtain ⟨t₀, ht₀⟩ := not_forall.mp hdone
      obtain ⟨t, ht⟩ := h.progress ht₀
      have hless := pending_next ht
      obtain ⟨ls, hrun, hend⟩ := ih (h.next ht) (by omega)
      exact ⟨t :: ls, steps_cons.mpr ⟨ht, hrun⟩, hend⟩

end Finish

/-! ## Programs in parts -/

section Balanced

variable [DecidableEq M] {rank : M → Nat} {kept : M → Prop} {held : List M} {m : M}
  {ops ops' : List (Op M)}

/-- A part of a program that leaves the mutexes as it finds them. -/
def Balanced (rank : M → Nat) (kept : M → Prop) (held : List M) (ops : List (Op M)) : Prop :=
  ∀ rest, Disciplined rank kept held rest → Disciplined rank kept held (ops ++ rest)

/-- What is done under a mutex. -/
def guarded (m : M) (body : List (Op M)) : List (Op M) := .lock m :: (body ++ [.unlock m])

theorem balanced_nil : Balanced rank kept held [] := fun _ h => h

theorem Balanced.append (h : Balanced rank kept held ops) (h' : Balanced rank kept held ops') :
    Balanced rank kept held (ops ++ ops') := by
  intro rest hrest
  rw [List.append_assoc]
  exact h _ (h' rest hrest)

theorem balanced_flatMap {α : Type} {xs : List α} {f : α → List (Op M)}
    (h : ∀ x ∈ xs, Balanced rank kept held (f x)) : Balanced rank kept held (xs.flatMap f) := by
  induction xs with
  | nil => exact balanced_nil
  | cons x xs ih =>
    rw [List.flatMap_cons]
    exact (h x List.mem_cons_self).append (ih fun y hy => h y (List.mem_cons_of_mem x hy))

theorem balanced_use (hm : kept m → m ∈ held) : Balanced rank kept held [.use m] :=
  fun _ hrest => ⟨hm, hrest⟩

theorem balanced_uses (hm : kept m → m ∈ held) (n : Nat) :
    Balanced rank kept held (List.replicate n (.use m)) := by
  intro rest hrest
  induction n with
  | zero => exact hrest
  | succ n ih => exact ⟨hm, ih⟩

theorem balanced_guarded {body : List (Op M)} (hrank : ∀ m' ∈ held, rank m' < rank m)
    (hbody : Balanced rank kept (m :: held) body) : Balanced rank kept held (guarded m body) := by
  intro rest hrest
  have hrest' : Disciplined rank kept (m :: held) (.unlock m :: rest) := by
    refine ⟨List.mem_cons_self, ?_⟩
    rwa [List.erase_cons_head]
  have heq : guarded m body ++ rest = .lock m :: (body ++ .unlock m :: rest) := by
    simp [guarded]
  rw [heq]
  exact ⟨hrank, hbody _ hrest'⟩

/-- A part that stands alone. -/
theorem Balanced.disciplined (h : Balanced rank kept [] ops) : Disciplined rank kept [] ops := by
  rw [← List.append_nil ops]
  exact h [] rfl

end Balanced

end Mutex

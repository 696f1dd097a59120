import Mathlib.Data.List.Basic
import Mathlib.Data.List.Infix
import Mathlib.Tactic.Common

/-!
# Cursors over bytes and the readers that move them

A `Cursor` is a pointer into memory together with the number of elements a reader may still take,
the pair that C-style parsers pass by reference. The two are separate fields, as they are in such
code; that the memory is long enough is a field, so an index below `size` is always in bounds.

A `Reader` is a computation over a cursor that fails with an error and leaves the cursor where it
was when it failed. These properties of readers are closed under `pure` and `bind`:

* `Decodes p enc a`: on a view that starts with `enc`, `p` returns `a` and consumes exactly `enc`.
* `Streaming final p`: a success, or a failure with an error for which `final` holds, stays as it
  is when more input follows.
* `Local p`: what lies behind the view makes no difference.
* `Reads N p G`: a success on at most `N` elements consumes some that are laid out as `G` says.
-/

namespace Wire

variable {β ε α γ : Type}

/-- A pointer into memory (`bufp`: the memory from the pointer on) and the elements left to read. -/
structure Cursor (β : Type) where
  bufp : List β
  size : Nat
  size_le : size ≤ bufp.length

namespace Cursor

/-- What may still be read. -/
def view (c : Cursor β) : List β := c.bufp.take c.size

/-- The pointer moves forward by `n` and the size goes down by `n`. -/
def advance (c : Cursor β) (n : Nat) : Cursor β :=
  ⟨c.bufp.drop n, c.size - n, by have := c.size_le; simp only [List.length_drop]; omega⟩

/-- The cursor of a whole buffer. -/
def ofList (s : List β) : Cursor β := ⟨s, s.length, Nat.le_refl _⟩

theorem ext_fields {c d : Cursor β} (hb : c.bufp = d.bufp) (hs : c.size = d.size) : c = d := by
  cases c; cases d; simp only [mk.injEq]; exact ⟨hb, hs⟩

@[simp] theorem length_view (c : Cursor β) : c.view.length = c.size := by
  simp [view, c.size_le]

@[simp] theorem view_ofList (s : List β) : (ofList s).view = s := by simp [view, ofList]

@[simp] theorem size_ofList (s : List β) : (ofList s).size = s.length := rfl

@[simp] theorem size_advance (c : Cursor β) (n : Nat) : (c.advance n).size = c.size - n := rfl

@[simp] theorem advance_zero (c : Cursor β) : c.advance 0 = c := ext_fields rfl rfl

@[simp] theorem advance_advance (c : Cursor β) (m n : Nat) :
    (c.advance m).advance n = c.advance (m + n) :=
  ext_fields (by simp [advance]) (by simp [advance]; omega)

theorem view_advance (c : Cursor β) (n : Nat) : (c.advance n).view = c.view.drop n := by
  simp [view, advance, List.drop_take]

/-- An element below `size` is the one of the view. -/
theorem getElem_bufp (c : Cursor β) {i : Nat} (hb : i < c.bufp.length) (hv : i < c.view.length) :
    c.bufp[i] = c.view[i] := by
  simp [view]

theorem size_le_of_isPrefix {c c' : Cursor β} (h : c.view <+: c'.view) : c.size ≤ c'.size := by
  simpa using h.length_le

/-- A prefix view stays one when both cursors move by the same amount. -/
theorem prefix_advance {c c' : Cursor β} (h : c.view <+: c'.view) {k : Nat} (hk : k ≤ c.size) :
    (c.advance k).view <+: (c'.advance k).view := by
  obtain ⟨t, ht⟩ := h
  refine ⟨t, ?_⟩
  rw [view_advance, view_advance, ← ht, List.drop_append_of_le_length (by simpa using hk)]

theorem getElem_of_isPrefix {c c' : Cursor β} (h : c.view <+: c'.view) {i : Nat} (hi : i < c.size)
    (hb : i < c.bufp.length) (hb' : i < c'.bufp.length) : c'.bufp[i] = c.bufp[i] := by
  have hsz := size_le_of_isPrefix h
  rw [getElem_bufp c hb (by simpa using hi), getElem_bufp c' hb' (by rw [length_view]; omega)]
  obtain ⟨t, ht⟩ := h
  simp only [← ht]
  exact List.getElem_append_left _

theorem take_of_isPrefix {c c' : Cursor β} (h : c.view <+: c'.view) {n : Nat} (hn : n ≤ c.size) :
    c'.bufp.take n = c.bufp.take n := by
  have key : ∀ d : Cursor β, n ≤ d.size → d.bufp.take n = d.view.take n := fun d hd => by
    rw [view, List.take_take, Nat.min_eq_left hd]
  rw [key c hn, key c' (Nat.le_trans hn (size_le_of_isPrefix h))]
  obtain ⟨t, ht⟩ := h
  rw [← ht, List.take_append_of_le_length (by simpa using hn)]

end Cursor

/-- A computation over a cursor; a failure leaves the cursor where it was at the failure. -/
abbrev Reader (β ε α : Type) := EStateM ε (Cursor β) α

theorem bind_run (p : Reader β ε α) (f : α → Reader β ε γ) (c : Cursor β) :
    (p >>= f) c = match p c with
      | .ok a d => f a d
      | .error e d => .error e d := by
  show EStateM.bind p f c = _
  unfold EStateM.bind
  cases p c <;> rfl

theorem pure_run (a : α) (c : Cursor β) : (pure a : Reader β ε α) c = .ok a c := rfl

theorem throw_run (e : ε) (c : Cursor β) : (throw e : Reader β ε α) c = .error e c := rfl

/-! ## Decoding an encoding -/

/-- On a view that starts with `enc`, `p` returns `a` and consumes exactly `enc`. -/
def Decodes (p : Reader β ε α) (enc : List β) (a : α) : Prop :=
  ∀ (c : Cursor β) (r : List β), c.view = enc ++ r → p c = .ok a (c.advance enc.length)

theorem Decodes.pure (a : α) : Decodes (pure a : Reader β ε α) [] a :=
  fun c r _ => by rw [pure_run]; simp

theorem Decodes.bind {p : Reader β ε α} {f : α → Reader β ε γ} {enc enc' : List β} {a : α} {b : γ}
    (hp : Decodes p enc a) (hf : Decodes (f a) enc' b) : Decodes (p >>= f) (enc ++ enc') b := by
  intro c r hc
  have hv : (c.advance enc.length).view = enc' ++ r := by
    rw [Cursor.view_advance, hc, List.append_assoc, List.drop_left]
  rw [bind_run, hp c (enc' ++ r) (by rw [hc, List.append_assoc])]
  simp only [hf _ r hv, Cursor.advance_advance, List.length_append]

/-- What follows consumes nothing. -/
theorem Decodes.bind_nil {p : Reader β ε α} {f : α → Reader β ε γ} {enc : List β} {a : α} {b : γ}
    (hp : Decodes p enc a) (hf : Decodes (f a) [] b) : Decodes (p >>= f) enc b := by
  have h := hp.bind hf
  rwa [List.append_nil] at h

theorem Decodes.map {p : Reader β ε α} {enc : List β} {a : α} (g : α → γ) (hp : Decodes p enc a) :
    Decodes (p >>= fun x => Pure.pure (g x)) enc (g a) :=
  hp.bind_nil (Decodes.pure (g a))

/-- Run `p` `n` times, one after the other. -/
def times (p : Reader β ε α) : Nat → Reader β ε (List α)
  | 0 => Pure.pure []
  | n + 1 => do
    let a ← p
    let as ← times p n
    Pure.pure (a :: as)

theorem Decodes.times {p : Reader β ε α} {enc : α → List β} {as : List α}
    (h : ∀ a ∈ as, Decodes p (enc a) a) :
    Decodes (times p as.length) (as.map enc).flatten as := by
  induction as with
  | nil => exact Decodes.pure []
  | cons a as ih =>
    have htail := (ih fun b hb => h b (List.mem_cons_of_mem _ hb)).map (a :: ·)
    exact (h a List.mem_cons_self).bind htail

/-- Each value from a piece of its own. -/
theorem Decodes.times_pieces {p : Reader β ε α} {pieces : List (List β)} {as : List α}
    (h : List.Forall₂ (Decodes p) pieces as) : Decodes (Wire.times p as.length) pieces.flatten as := by
  induction h with
  | nil => exact Decodes.pure []
  | @cons piece a pieces as hpiece _ ih => exact hpiece.bind (ih.map (a :: ·))

/-- The encoding of a decoded value determines it, whatever follows. -/
theorem Decodes.injective {p : Reader β ε α} {e₁ e₂ r₁ r₂ : List β} {a₁ a₂ : α}
    (h₁ : Decodes p e₁ a₁) (h₂ : Decodes p e₂ a₂) (h : e₁ ++ r₁ = e₂ ++ r₂) :
    a₁ = a₂ ∧ r₁ = r₂ := by
  have h₁' := h₁ (Cursor.ofList (e₁ ++ r₁)) r₁ (Cursor.view_ofList _)
  have h₂' := h₂ (Cursor.ofList (e₁ ++ r₁)) r₂ (by rw [Cursor.view_ofList, h])
  rw [h₁'] at h₂'
  obtain ⟨ha, hc⟩ := EStateM.Result.ok.inj h₂'
  refine ⟨ha, ?_⟩
  have hv := congrArg Cursor.view hc
  rw [Cursor.view_advance, Cursor.view_advance, Cursor.view_ofList, List.drop_left, h,
    List.drop_left] at hv
  exact hv

/-! ## Verdicts that more input does not change -/

/-- What `p` says of `c`, a success or a failure with a `final` error, it says of every cursor
whose view extends that of `c`, and both cursors move by the same amount. -/
def Streaming (final : ε → Prop) (p : Reader β ε α) : Prop :=
  ∀ c c' : Cursor β, c.view <+: c'.view →
    (∀ a d, p c = .ok a d → ∃ k, k ≤ c.size ∧ d = c.advance k ∧ p c' = .ok a (c'.advance k)) ∧
    (∀ e d, p c = .error e d → final e → ∃ k, k ≤ c.size ∧ p c' = .error e (c'.advance k))

theorem Streaming.pure (final : ε → Prop) (a : α) :
    Streaming final (pure a : Reader β ε α) := by
  intro c c' _
  refine ⟨fun b d h => ?_, fun e d h => by cases h⟩
  obtain ⟨rfl, rfl⟩ := EStateM.Result.ok.inj h
  exact ⟨0, Nat.zero_le _, by simp, by rw [pure_run]; simp⟩

theorem Streaming.throw (final : ε → Prop) (e : ε) :
    Streaming final (throw e : Reader β ε α) := by
  intro c c' _
  refine ⟨fun b d h => (by cases h), fun e' d h _ => ?_⟩
  obtain ⟨rfl, rfl⟩ := EStateM.Result.error.inj h
  exact ⟨0, Nat.zero_le _, by rw [throw_run]; simp⟩

theorem Streaming.bind {final : ε → Prop} {p : Reader β ε α} {f : α → Reader β ε γ}
    (hp : Streaming final p) (hf : ∀ a, Streaming final (f a)) : Streaming final (p >>= f) := by
  intro c c' hpre
  obtain ⟨hok, herr⟩ := hp c c' hpre
  rw [bind_run, bind_run]
  cases hpc : p c with
  | error e d =>
    refine ⟨fun b d' h => (by cases h), fun e' d' h hfin => ?_⟩
    obtain ⟨rfl, rfl⟩ := EStateM.Result.error.inj h
    obtain ⟨k, hk, hc'⟩ := herr _ _ hpc hfin
    exact ⟨k, hk, by rw [hc']⟩
  | ok a d =>
    obtain ⟨k, hk, rfl, hc'⟩ := hok _ _ hpc
    obtain ⟨hok', herr'⟩ := hf a _ _ (Cursor.prefix_advance hpre hk)
    rw [hc']
    refine ⟨fun b d' h => ?_, fun e d' h hfin => ?_⟩
    · obtain ⟨l, hl, rfl, h'⟩ := hok' _ _ h
      rw [Cursor.size_advance] at hl
      exact ⟨k + l, by omega, by simp, by simpa using h'⟩
    · obtain ⟨l, hl, h'⟩ := herr' _ _ h hfin
      rw [Cursor.size_advance] at hl
      exact ⟨k + l, by omega, by simpa using h'⟩

/-- A success consumes part of the view. -/
theorem Streaming.ok_advance {final : ε → Prop} {p : Reader β ε α} (hp : Streaming final p)
    {c d : Cursor β} {a : α} (h : p c = .ok a d) : ∃ k, k ≤ c.size ∧ d = c.advance k := by
  obtain ⟨k, hk, hd, -⟩ := (hp c c (List.prefix_refl _)).1 a d h
  exact ⟨k, hk, hd⟩

/-- A failure on a view is a failure on every cursor with this view, with the same error if one of
the two errors is final. -/
theorem Streaming.error_of_view_eq {final : ε → Prop} {p : Reader β ε α} (hp : Streaming final p)
    {c c' d : Cursor β} (hv : c.view = c'.view) {e : ε} (h : p c = .error e d) :
    ∃ e' d', p c' = .error e' d' ∧ (final e → e' = e) ∧ (final e' → e' = e) := by
  have hto := hp c c' (hv ▸ List.prefix_refl _)
  have hback := hp c' c (hv ▸ List.prefix_refl _)
  cases h' : p c' with
  | ok a d' =>
    obtain ⟨k, -, -, hc⟩ := hback.1 a d' h'
    rw [h] at hc
    cases hc
  | error e' d' =>
    refine ⟨e', d', rfl, fun hfin => ?_, fun hfin => ?_⟩
    · obtain ⟨k, -, hc⟩ := hto.2 e d h hfin
      rw [h'] at hc
      exact (EStateM.Result.error.inj hc).1
    · obtain ⟨k, -, hc⟩ := hback.2 e' d' h' hfin
      rw [h] at hc
      exact (EStateM.Result.error.inj hc).1.symm

theorem Streaming.times {final : ε → Prop} {p : Reader β ε α} (hp : Streaming final p) (n : Nat) :
    Streaming final (times p n) := by
  induction n with
  | zero => exact .pure final []
  | succ n ih => exact hp.bind fun a => ih.bind fun as => .pure final (a :: as)

/-! ## Readers that keep to the view -/

/-- On two cursors with the same view `p` says the same and moves both by the same amount, whatever
else is in memory. -/
def Local (p : Reader β ε α) : Prop := ∀ c c' : Cursor β, c.view = c'.view →
  (∀ a d, p c = .ok a d → ∃ k, d = c.advance k ∧ p c' = .ok a (c'.advance k)) ∧
  ∀ e d, p c = .error e d → ∃ d', p c' = .error e d'

/-- A streaming reader with one error that more input may change. -/
theorem Streaming.isLocal {final : ε → Prop} {p : Reader β ε α} (hp : Streaming final p)
    (hone : ∀ e e', ¬ final e → ¬ final e' → e' = e) : Local p := by
  intro c c' hv
  refine ⟨fun a d h => ?_, fun e d h => ?_⟩
  · obtain ⟨k, -, hd, hc'⟩ := (hp c c' (hv ▸ List.prefix_refl _)).1 a d h
    exact ⟨k, hd, hc'⟩
  · obtain ⟨e', d', hc', hto, hback⟩ := hp.error_of_view_eq hv h
    have he : e' = e := by
      by_cases hfin : final e
      · exact hto hfin
      · by_cases hfin' : final e'
        · exact hback hfin'
        · exact hone e e' hfin hfin'
    exact ⟨d', he ▸ hc'⟩

theorem Local.pure (a : α) : Local (pure a : Reader β ε α) := by
  intro c c' _
  refine ⟨fun b d h => ?_, fun e d h => by cases h⟩
  obtain ⟨rfl, rfl⟩ := EStateM.Result.ok.inj h
  exact ⟨0, by simp, by rw [pure_run]; simp⟩

theorem Local.bind {p : Reader β ε α} {f : α → Reader β ε γ} (hp : Local p)
    (hf : ∀ a, Local (f a)) : Local (p >>= f) := by
  intro c c' hv
  obtain ⟨hok, herr⟩ := hp c c' hv
  rw [bind_run, bind_run]
  cases hpc : p c with
  | error e d =>
    obtain ⟨d', hc'⟩ := herr e d hpc
    refine ⟨fun b d' h => (by cases h), fun e' d'' h => ?_⟩
    obtain ⟨rfl, rfl⟩ := EStateM.Result.error.inj h
    exact ⟨d', by rw [hc']⟩
  | ok a d =>
    obtain ⟨k, rfl, hc'⟩ := hok a d hpc
    have hv' : (c.advance k).view = (c'.advance k).view := by
      rw [Cursor.view_advance, Cursor.view_advance, hv]
    obtain ⟨hok', herr'⟩ := hf a _ _ hv'
    rw [hc']
    refine ⟨fun b d' h => ?_, herr'⟩
    obtain ⟨l, rfl, h'⟩ := hok' b d' h
    exact ⟨k + l, by simp, by simpa using h'⟩

theorem Local.times {p : Reader β ε α} (hp : Local p) (n : Nat) : Local (times p n) := by
  induction n with
  | zero => exact .pure []
  | succ n ih => exact hp.bind fun a => ih.bind fun as => .pure (a :: as)

/-! ## What was consumed -/

/-- A success on at most `N` elements consumes some that are laid out as `G` says of the result. -/
def Reads (N : Nat) (p : Reader β ε α) (G : List β → α → Prop) : Prop :=
  ∀ c a d, c.size ≤ N → p c = .ok a d →
    ∃ k, k ≤ c.size ∧ d = c.advance k ∧ G (c.view.take k) a

theorem Reads.mono {N : Nat} {p : Reader β ε α} {G G' : List β → α → Prop} (hp : Reads N p G)
    (hG : ∀ bs a, bs.length ≤ N → G bs a → G' bs a) : Reads N p G' := by
  intro c a d hN h
  obtain ⟨k, hk, hd, hg⟩ := hp c a d hN h
  refine ⟨k, hk, hd, hG _ _ ?_ hg⟩
  rw [List.length_take, Cursor.length_view]
  omega

theorem Reads.pure (N : Nat) (a : α) :
    Reads N (pure a : Reader β ε α) fun bs b => bs = [] ∧ b = a := by
  intro c b d _ h
  obtain ⟨rfl, rfl⟩ := EStateM.Result.ok.inj h
  exact ⟨0, Nat.zero_le _, by simp, by simp⟩

theorem Reads.throw (N : Nat) (e : ε) {G : List β → α → Prop} :
    Reads N (throw e : Reader β ε α) G := by
  intro c b d _ h
  cases h

theorem Reads.bind {N : Nat} {p : Reader β ε α} {f : α → Reader β ε γ} {G : List β → α → Prop}
    {G' : α → List β → γ → Prop} (hp : Reads N p G) (hf : ∀ a, Reads N (f a) (G' a)) :
    Reads N (p >>= f) fun bs b => ∃ a bs₁ bs₂, bs = bs₁ ++ bs₂ ∧ G bs₁ a ∧ G' a bs₂ b := by
  intro c b d hN h
  rw [bind_run] at h
  cases hpc : p c with
  | error e d' => rw [hpc] at h; cases h
  | ok a d' =>
    rw [hpc] at h
    obtain ⟨k, hk, rfl, hg⟩ := hp c a d' hN hpc
    obtain ⟨l, hl, rfl, hg'⟩ := hf a _ b d (by rw [Cursor.size_advance]; omega) h
    rw [Cursor.size_advance] at hl
    refine ⟨k + l, by omega, by simp, a, _, _, ?_, hg, hg'⟩
    rw [Cursor.view_advance, List.take_add]

theorem Reads.times {N : Nat} {p : Reader β ε α} {G : List β → α → Prop} (hp : Reads N p G)
    (n : Nat) : Reads N (times p n) fun bs as =>
      as.length = n ∧ ∃ pieces, bs = pieces.flatten ∧ List.Forall₂ G pieces as := by
  induction n with
  | zero =>
    refine (Reads.pure N []).mono fun bs as _ ⟨hbs, has⟩ => ?_
    subst hbs has
    exact ⟨rfl, [], rfl, .nil⟩
  | succ n ih =>
    refine (hp.bind fun a => ih.bind fun as => .pure N (a :: as)).mono fun bs as _ h => ?_
    obtain ⟨a, bs₁, bs₂, rfl, hg, as', bs₃, bs₄, rfl, ⟨hlen, pieces, rfl, hall⟩, rfl, rfl⟩ := h
    exact ⟨by rw [List.length_cons, hlen], bs₁ :: pieces, by simp, .cons hg hall⟩

/-! ## Readers that put the cursor back -/

/-- Run `p` on a copy of the cursor that is written back only on success. -/
def onCopy (p : Reader β ε α) : Reader β ε α := fun c =>
  match p c with
  | .ok a d => .ok a d
  | .error e _ => .error e c

theorem onCopy_ok {p : Reader β ε α} {c d : Cursor β} {a : α} :
    onCopy p c = .ok a d ↔ p c = .ok a d := by
  unfold onCopy
  split <;> rename_i h <;> simp [h]

theorem onCopy_error {p : Reader β ε α} {c d : Cursor β} {e : ε} :
    onCopy p c = .error e d ↔ d = c ∧ ∃ d', p c = .error e d' := by
  unfold onCopy
  split <;> rename_i h
  · simp [h]
  · simp only [EStateM.Result.error.injEq, h]
    exact ⟨fun ⟨he, hd⟩ => ⟨hd.symm, _, he, rfl⟩, fun ⟨hd, _, he, _⟩ => ⟨he, hd.symm⟩⟩

theorem Decodes.onCopy {p : Reader β ε α} {enc : List β} {a : α} (hp : Decodes p enc a) :
    Decodes (onCopy p) enc a :=
  fun c r hc => onCopy_ok.mpr (hp c r hc)

theorem Streaming.onCopy {final : ε → Prop} {p : Reader β ε α} (hp : Streaming final p) :
    Streaming final (onCopy p) := by
  intro c c' h
  obtain ⟨hok, herr⟩ := hp c c' h
  refine ⟨fun a d hd => ?_, fun e d hd hfin => ?_⟩
  · obtain ⟨k, hk, rfl, hc'⟩ := hok a d (onCopy_ok.mp hd)
    exact ⟨k, hk, rfl, onCopy_ok.mpr hc'⟩
  · obtain ⟨-, d', hd'⟩ := onCopy_error.mp hd
    obtain ⟨k, -, hc'⟩ := herr e d' hd' hfin
    exact ⟨0, Nat.zero_le _, onCopy_error.mpr ⟨Cursor.advance_zero c', _, hc'⟩⟩

/-! ## The errors of a reader -/

/-- Every failure of `p` is with an error of `E`. -/
def Throws (E : ε → Prop) (p : Reader β ε α) : Prop := ∀ c e d, p c = .error e d → E e

theorem Throws.pure (E : ε → Prop) (a : α) : Throws E (pure a : Reader β ε α) :=
  fun c e d h => (by cases h)

theorem Throws.throw {E : ε → Prop} {e : ε} (he : E e) : Throws E (throw e : Reader β ε α) := by
  intro c e' d h
  obtain ⟨rfl, -⟩ := EStateM.Result.error.inj h
  exact he

theorem Throws.bind {E : ε → Prop} {p : Reader β ε α} {f : α → Reader β ε γ} (hp : Throws E p)
    (hf : ∀ a, Throws E (f a)) : Throws E (p >>= f) := by
  intro c e d h
  rw [bind_run] at h
  cases hpc : p c with
  | ok a d' => rw [hpc] at h; exact hf a _ _ _ h
  | error e' d' =>
    rw [hpc] at h
    obtain ⟨rfl, -⟩ := EStateM.Result.error.inj h
    exact hp _ _ _ hpc

/-! ## Readers that use up input -/

/-- A success leaves less to read. -/
def Consumes (p : Reader β ε α) : Prop := ∀ c a d, p c = .ok a d → d.size < c.size

theorem Consumes.bind {final : ε → Prop} {p : Reader β ε α} {f : α → Reader β ε γ}
    (hp : Consumes p) (hf : ∀ a, Streaming final (f a)) : Consumes (p >>= f) := by
  intro c b d h
  rw [bind_run] at h
  cases hpc : p c with
  | error e d' => rw [hpc] at h; cases h
  | ok a d' =>
    rw [hpc] at h
    obtain ⟨k, -, rfl⟩ := (hf a).ok_advance h
    have := hp c a d' hpc
    rw [Cursor.size_advance]
    omega

/-- More rounds than there are elements end with a failure, after at most one round for each. -/
theorem times_stops {N : Nat} {p : Reader β ε α}
    (hp : ∀ c a d, c.size ≤ N → p c = .ok a d → d.size < c.size) {c : Cursor β} {n : Nat}
    (hc : c.size ≤ N) (hn : c.size < n) :
    ∃ m as d e d', m ≤ c.size ∧ times p m c = .ok as d ∧ p d = .error e d' := by
  induction n generalizing c with
  | zero => omega
  | succ n ih =>
    cases hpc : p c with
    | error e d' => exact ⟨0, [], c, e, d', Nat.zero_le _, rfl, hpc⟩
    | ok a d =>
      have hlt := hp c a d hc hpc
      obtain ⟨m, as, d₁, e, d', hm, htimes, herr⟩ := ih (c := d) (by omega) (by omega)
      refine ⟨m + 1, a :: as, d₁, e, d', by omega, ?_, herr⟩
      simp only [times, bind_run, hpc, htimes, pure_run]

theorem Consumes.onCopy {p : Reader β ε α} (hp : Consumes p) : Consumes (onCopy p) :=
  fun c a d h => hp c a d (onCopy_ok.mp h)

end Wire

import Vitamine.Lib.Cursor

/-!
# Codes that tell where they end

`Unique S enc a`: what `enc` writes for `a` is written for no other value of `S`, whatever follows
on either side; then what follows is the same as well. It is a property of one value, so that it can
be proved along the structure of the value. The rules are those of the formats in use:

* `Unique.of_decodes`: what a decoder reads back.
* `Unique.comap`, `Unique.image`: a code of something that determines the value.
* `Unique.append`: one part after another.
* `Unique.flatMap`, `Unique.counted`, `Unique.sized`: as many elements as a count says.
* `Unique.terminated`: elements up to an end mark, if no element starts like the mark.

`Unique.isPrefix` is about a stream that goes on without a count and without an end mark: what there
is of it so far begins with the elements that were written, and with no others.
-/

namespace PrefixCode

open Wire

variable {α β γ ε : Type} {S : α → Prop} {enc : α → List β} {a : α}

/-- What `enc` writes for `a` is written for no other value of `S`, whatever follows. -/
def Unique (S : α → Prop) (enc : α → List β) (a : α) : Prop :=
  ∀ b, S b → ∀ r s, enc a ++ r = enc b ++ s → a = b ∧ r = s

/-- A value of a decoder that reads all values back. -/
theorem Unique.of_decodes {p : Reader β ε α} (h : ∀ b, S b → Decodes p (enc b) b) (ha : S a) :
    Unique S enc a :=
  fun b hb _ _ he => (h a ha).injective (h b hb) he

/-- What is written is a code of `f`, which determines the value. -/
theorem Unique.comap {T : γ → Prop} {f : γ → α} {c : γ} (h : Unique S enc (f c))
    (hS : ∀ d, T d → S (f d)) (hf : ∀ d, T d → f c = f d → c = d) :
    Unique T (fun d => enc (f d)) c := by
  intro d hd r s he
  obtain ⟨hfd, hrs⟩ := h (f d) (hS d hd) r s he
  exact ⟨hf d hd hfd, hrs⟩

/-- Every value is of one form, and what is written for it is a code of what is in it. -/
theorem Unique.image {T : γ → Prop} {enc' : γ → List β} {f : γ → α} {c : γ} (h : Unique T enc' c)
    (hS : ∀ b, S b → ∃ d, T d ∧ b = f d) (henc : ∀ d, enc (f d) = enc' d) : Unique S enc (f c) := by
  intro b hb r s he
  obtain ⟨d, hd, rfl⟩ := hS b hb
  rw [henc, henc] at he
  obtain ⟨rfl, hrs⟩ := h d hd r s he
  exact ⟨rfl, hrs⟩

/-- One part after another. -/
theorem Unique.append {T : γ → Prop} {enc' : γ → List β} {p : α × γ} (h : Unique S enc p.1)
    (h' : Unique T enc' p.2) :
    Unique (fun q : α × γ => S q.1 ∧ T q.2) (fun q => enc q.1 ++ enc' q.2) p := by
  rintro q ⟨hq, hq'⟩ r s he
  simp only [List.append_assoc] at he
  obtain ⟨h1, he⟩ := h q.1 hq _ _ he
  obtain ⟨h2, hrs⟩ := h' q.2 hq' _ _ he
  exact ⟨Prod.ext h1 h2, hrs⟩

/-! ## Lists -/

/-- As many elements on both sides. -/
theorem Unique.flatMap {as bs : List α} (h : ∀ a ∈ as, Unique S enc a) (hbs : ∀ b ∈ bs, S b)
    (hlen : as.length = bs.length) {r s : List β}
    (he : as.flatMap enc ++ r = bs.flatMap enc ++ s) : as = bs ∧ r = s := by
  induction as generalizing bs with
  | nil =>
    cases List.length_eq_zero_iff.mp hlen.symm
    exact ⟨rfl, he⟩
  | cons a as ih =>
    cases bs with
    | nil => simp at hlen
    | cons b bs =>
      simp only [List.flatMap_cons, List.append_assoc] at he
      obtain ⟨rfl, hrest⟩ := h a List.mem_cons_self b (hbs b List.mem_cons_self) _ _ he
      obtain ⟨rfl, hrs⟩ := ih (fun a' ha' => h a' (List.mem_cons_of_mem _ ha'))
        (fun b' hb' => hbs b' (List.mem_cons_of_mem _ hb')) (by simpa using hlen) hrest
      exact ⟨rfl, hrs⟩

/-- The number of elements, and the elements. -/
theorem Unique.counted {bound : Nat} {count : Nat → List β} {as : List α}
    (hcount : Unique (· < bound) count as.length) (h : ∀ a ∈ as, Unique S enc a) :
    Unique (fun bs : List α => bs.length < bound ∧ ∀ b ∈ bs, S b)
      (fun bs => count bs.length ++ bs.flatMap enc) as := by
  rintro bs ⟨hlt, hbs⟩ r s he
  simp only [List.append_assoc] at he
  obtain ⟨hlen, he⟩ := hcount bs.length hlt _ _ he
  exact Unique.flatMap h hbs hlen he

/-- The number of symbols, and the symbols. -/
theorem Unique.sized {bound : Nat} {count : Nat → List β} {as : List β}
    (hcount : Unique (· < bound) count as.length) :
    Unique (fun bs : List β => bs.length < bound) (fun bs => count bs.length ++ bs) as := by
  intro bs hlt r s he
  simp only [List.append_assoc] at he
  obtain ⟨hlen, he⟩ := hcount bs.length hlt _ _ he
  exact List.append_inj he hlen

/-- Elements up to an end mark: after every element, either the mark or another element follows, and
they start differently. -/
theorem Unique.terminated {stop : List β} {as : List α} (h : ∀ a ∈ as, Unique S enc a)
    (has : ∀ a ∈ as, S a) (hstop : ∀ a, S a → ∀ r s, enc a ++ r ≠ stop ++ s) :
    Unique (fun bs : List α => ∀ b ∈ bs, S b) (fun bs => bs.flatMap enc ++ stop) as := by
  induction as with
  | nil =>
    intro bs hbs r s he
    cases bs with
    | nil => exact ⟨rfl, List.append_cancel_left he⟩
    | cons b bs =>
      simp only [List.flatMap_nil, List.nil_append, List.flatMap_cons, List.append_assoc] at he
      exact absurd he.symm (hstop b (hbs b List.mem_cons_self) _ _)
  | cons a as ih =>
    intro bs hbs r s he
    cases bs with
    | nil =>
      simp only [List.flatMap_nil, List.nil_append, List.flatMap_cons, List.append_assoc] at he
      exact absurd he (hstop a (has a List.mem_cons_self) _ _)
    | cons b bs =>
      simp only [List.flatMap_cons, List.append_assoc] at he
      obtain ⟨rfl, hrest⟩ := h a List.mem_cons_self b (hbs b List.mem_cons_self) _ _ he
      obtain ⟨rfl, hrs⟩ := ih (fun a' ha' => h a' (List.mem_cons_of_mem _ ha'))
        (fun a' ha' => has a' (List.mem_cons_of_mem _ ha')) bs
        (fun b' hb' => hbs b' (List.mem_cons_of_mem _ hb')) r s (by simpa using hrest)
      exact ⟨rfl, hrs⟩

/-- A stream that begins like another has the elements that the other begins with. -/
theorem Unique.isPrefix {as bs : List α} (h : ∀ a ∈ as, Unique S enc a) (hne : ∀ a ∈ as, enc a ≠ [])
    (hbs : ∀ b ∈ bs, S b) (hp : as.flatMap enc <+: bs.flatMap enc) : as <+: bs := by
  induction as generalizing bs with
  | nil => exact List.nil_prefix
  | cons a as ih =>
    obtain ⟨r, hr⟩ := hp
    cases bs with
    | nil =>
      rw [List.flatMap_cons, List.append_assoc, List.flatMap_nil] at hr
      exact absurd (List.append_eq_nil_iff.mp hr).1 (hne a List.mem_cons_self)
    | cons b bs =>
      simp only [List.flatMap_cons, List.append_assoc] at hr
      obtain ⟨rfl, hrest⟩ := h a List.mem_cons_self b (hbs b List.mem_cons_self) _ _ hr
      have htail := ih (fun a' ha' => h a' (List.mem_cons_of_mem _ ha'))
        (fun a' ha' => hne a' (List.mem_cons_of_mem _ ha'))
        (fun b' hb' => hbs b' (List.mem_cons_of_mem _ hb')) ⟨r, hrest⟩
      exact List.cons_prefix_cons.mpr ⟨rfl, htail⟩

end PrefixCode

import Vitamine.Proxyd.Alike
import Vitamine.Proxyd.Traffic

/-!
# Addresses that are used again

The address of a `StateMachine` that is gone may be that of the next one. In the runs of `reusing` a
client may connect at any address at which nobody is, and what a registry still has under that
address is about the new client from then on.

* `run_reusing`: the runs of `server`, which uses no address twice, are such runs.
* `Tidy`: no registry has an entry of somebody who is gone, and so none of an address at which
  nobody is (`Tidy.not_registered`). It holds along every run whose drops are clean
  (`tidy_of_run`).
* `along_reusing`, `along_iff_reusing`: in such runs an invariant has to be shown of the steps of
  `server`, and of an address that is made free.
-/

namespace Vitamine

open Wire System

/-- The address as before its first use. What a state machine had there is left, since nothing is
known of what memory holds. -/
def World.free (w : World) (this : StateMachinePtr) : World :=
  { w with
    life := Function.update w.life this .unused
    traffic := Function.update w.traffic this []
    disconnecting := Function.update w.disconnecting this false }

/-- The world in which a step happens: a client connects at a free address. -/
def World.reused (w : World) : ServerStep → World
  | .connect this _ _ _ => w.free this
  | _ => w

/-- The runs of the server, in which addresses are used again. -/
def reusing : System World ServerStep where
  enabled w
    | .connect this _ _ _ => w.life this ≠ .live
    | step => server.enabled w step
  next w step := server.next (w.reused step) step

instance decidableReusing (w : World) : (step : ServerStep) → Decidable (reusing.enabled w step)
  | .connect this _ _ _ => inferInstanceAs (Decidable (w.life this ≠ .live))
  | .packet this frame now => decidableEnabled w (.packet this frame now)
  | .error this => decidableEnabled w (.error this)
  | .tick this now => decidableEnabled w (.tick this now)
  | .disconnect this => decidableEnabled w (.disconnect this)

section Free

variable {w w' : World} {this p : StateMachinePtr} {step : ServerStep}

theorem enabled_reused (h : reusing.enabled w step) : server.enabled (w.reused step) step := by
  cases step with
  | connect this => exact Function.update_self ..
  | _ => exact h

@[simp] theorem free_globalState : (w.free this).globalState = w.globalState := rfl
@[simp] theorem free_tracker : (w.free this).tracker = w.tracker := rfl
@[simp] theorem free_player : (w.free this).player = w.player := rfl
@[simp] theorem free_phase : (w.free this).phase = w.phase := rfl

theorem free_joined : (w.free this).Joined p ↔ w.Joined p := .rfl

theorem free_registered : (w.free this).Registered p ↔ w.Registered p := .rfl

@[simp] theorem free_life_self : (w.free this).life this = .unused := Function.update_self ..

theorem free_life_ne (h : p ≠ this) : (w.free this).life p = w.life p :=
  Function.update_of_ne h ..

@[simp] theorem free_traffic_self : (w.free this).traffic this = [] := Function.update_self ..

theorem free_traffic_ne (h : p ≠ this) : (w.free this).traffic p = w.traffic p :=
  Function.update_of_ne h ..

/-- Nobody comes or goes. -/
theorem free_live_iff (hfree : w.life this ≠ .live) :
    (w.free this).life p = .live ↔ w.life p = .live := by
  by_cases hp : p = this
  · subst hp
    simp [hfree]
  · rw [free_life_ne hp]

/-- Who is there has been sent what it has been sent. -/
theorem free_traffic_of_live (hfree : w.life this ≠ .live) (hlive : w.life p = .live) :
    (w.free this).traffic p = w.traffic p :=
  free_traffic_ne fun hp => hfree (hp ▸ hlive)

theorem unmoved_free (hp : p ≠ this) : Unmoved w (w.free this) p where
  life := free_life_ne hp
  phase := rfl
  player := .refl _
  players := .rfl
  membership _ := .rfl
  subscriptions _ := .rfl
  serverSettings := rfl

/-- Where nobody has been, nothing is to be forgotten but `disconnecting`. -/
theorem alike_free (hunused : w.life this = .unused) (htraffic : w.traffic this = []) :
    Alike w (w.free this) := by
  refine ⟨fun p => (w.machine p).reader, Function.update w.disconnecting this false, ?_⟩
  unfold World.free World.hide
  rw [← hunused, ← htraffic, Function.update_eq_self, Function.update_eq_self]

end Free

/-! ## Without reuse -/

section Server

variable {uuidGenerator : Bytes → Uuid} {machine : StateMachinePtr → StateMachine}
  {steps : List ServerStep}

/-- **A run without reuse is one with reuse**, up to what nothing looks at. -/
theorem run_reusing (h : server.Run (.initial uuidGenerator machine) steps) :
    reusing.Run (.initial uuidGenerator machine) steps ∧
      Alike (server.after (.initial uuidGenerator machine) steps)
        (reusing.after (.initial uuidGenerator machine) steps) := by
  induction steps using List.reverseRecOn with
  | nil => exact ⟨steps_nil, .refl _⟩
  | append_singleton steps step ih =>
    obtain ⟨hrun, he⟩ := steps_snoc.mp h
    obtain ⟨hreusing, halike⟩ := ih hrun
    have hbase : server.Along (.initial uuidGenerator machine) steps Base :=
      along_of_run (.initial uuidGenerator machine) (fun _ _ hb he => hb.next he) hrun
    have he' := (halike.enabled step).mpr he
    rw [after_snoc, after_snoc]
    suffices hstep : reusing.enabled (reusing.after (.initial uuidGenerator machine) steps) step ∧
        Alike (server.after (.initial uuidGenerator machine) steps)
          ((reusing.after (.initial uuidGenerator machine) steps).reused step) from
      ⟨steps_snoc.mpr ⟨hreusing, hstep.1⟩, alike_next hstep.2 step⟩
    cases step with
    | connect this =>
      have hunused : (reusing.after (.initial uuidGenerator machine) steps).life this = .unused :=
        he'
      refine ⟨fun hlive => ?_, halike.trans (alike_free hunused ?_)⟩
      · rw [hunused] at hlive
        cases hlive
      · obtain ⟨r, d, hhide⟩ := halike
        rw [hhide]
        exact hbase.last.untouched this he
    | _ => exact ⟨he', halike⟩

end Server

/-! ## Clean drops -/

/-- What a run with clean drops keeps, wherever its state machines are. -/
structure Tidy (w : World) : Prop extends Base w where
  noStaleEntry : NoStaleEntry w

section Tidy

variable {w : World} {this p : StateMachinePtr} {step : ServerStep}

/-- No registry has an entry of an address at which nobody is. -/
theorem Tidy.not_registered (h : Tidy w) (hfree : w.life this ≠ .live) : ¬ w.Registered this := by
  intro hreg
  have hdestroyed : w.life this ≠ .destroyed := h.noStaleEntry this hreg
  have hunused : w.life this ≠ .unused := by
    rcases hreg with hp | ⟨c, hc⟩ | ⟨c, hc⟩
    · exact ((h.registry this).players hp).1
    · exact absurd (((h.registry this).membership c).mp hc).1 hfree
    · exact ((h.registry this).subscriptions hc).1
  cases hlife : w.life this with
  | unused => exact hunused hlife
  | live => exact hfree hlife
  | destroyed => exact hdestroyed hlife

/-- Everybody on the player list is there. -/
theorem Tidy.live_of_players (h : Tidy w) (hp : p ∈ w.globalState.players) : w.life p = .live := by
  by_contra hlive
  exact h.not_registered hlive (.inl hp)

/-- A free address is in no registry, as before its first use. -/
theorem Tidy.registry_free (h : Tidy w) (hfree : w.life this ≠ .live) :
    Registry (w.free this) this where
  players hp := absurd (.inl hp) (h.not_registered hfree)
  joined hlive := by simp at hlive
  membership c := by
    have hmembership : this ∉ w.tracker.membership c :=
      fun hc => h.not_registered hfree (.inr (.inl ⟨c, hc⟩))
    simp [hmembership]
  subscriptions hc := absurd (.inr (.inr ⟨_, hc⟩)) (h.not_registered hfree)

theorem Tidy.free (h : Tidy w) (hfree : w.life this ≠ .live) : Tidy (w.free this) where
  registry p := by
    by_cases hp : p = this
    · subst hp
      exact h.registry_free hfree
    · exact (h.registry p).of_unmoved (unmoved_free hp)
  untouched p hunused := by
    by_cases hp : p = this
    · subst hp
      exact free_traffic_self
    · rw [free_life_ne hp] at hunused
      rw [free_traffic_ne hp]
      exact h.untouched p hunused
  noStaleEntry p hreg := by
    rw [free_registered] at hreg
    have hp : p ≠ this := fun hp => h.not_registered hfree (hp ▸ hreg)
    rw [free_life_ne hp]
    exact h.noStaleEntry p hreg

theorem Tidy.reused (h : Tidy w) (he : reusing.enabled w step) : Tidy (w.reused step) := by
  cases step with
  | connect this => exact h.free he
  | _ => exact h

theorem Tidy.next (h : Tidy w) (he : server.enabled w step) (hd : DropsClean w step) :
    Tidy (server.next w step) where
  toBase := h.toBase.next he
  noStaleEntry := (noStaleEntry_next h.registry h.noStaleEntry he).mpr hd

end Tidy

/-- Who drops has not logged in. -/
def DropsEarly (w : World) : ServerStep → Prop
  | .disconnect this => ¬ w.Joined this
  | _ => True

instance (w : World) : (step : ServerStep) → Decidable (DropsEarly w step)
  | .disconnect this => inferInstanceAs (Decidable (¬ w.Joined this))
  | .connect _ _ _ _ | .packet _ _ _ | .error _ | .tick _ _ => isTrue trivial

/-- Such a drop leaves nothing behind. -/
theorem DropsEarly.clean {w : World} {step : ServerStep} (h : DropsEarly w step) :
    DropsClean w step := by
  cases step with
  | disconnect this => exact ⟨fun hinit => h (.inl hinit), fun hplay => absurd (.inr hplay) h⟩
  | _ => trivial

theorem tidy_initial (uuidGenerator : Bytes → Uuid) (machine : StateMachinePtr → StateMachine) :
    Tidy (.initial uuidGenerator machine) where
  toBase := .initial uuidGenerator machine
  noStaleEntry p _ := by simp [World.initial]

/-! ## Runs -/

section Runs

variable {uuidGenerator : Bytes → Uuid} {machine : StateMachinePtr → StateMachine}
  {steps : List ServerStep} {I P : World → Prop} {ok : World → ServerStep → Prop}

/-- A step of `reusing`, from a world in which `I` holds, is one of `server` in such a world. -/
theorem reused_of_free {w : World} {step : ServerStep} (hw : Tidy w) (hI : I w)
    (hfree : ∀ w this, Tidy w → I w → w.life this ≠ .live → I (w.free this))
    (he : reusing.enabled w step) : I (w.reused step) := by
  cases step with
  | connect this => exact hfree w this hw hI he
  | _ => exact hI

theorem reused_ok {w : World} {step : ServerStep}
    (hconnect : ∀ w this settings id now, ok w (.connect this settings id now)) :
    ok (w.reused step) step ↔ ok w step := by
  cases step with
  | connect => exact iff_of_true (hconnect ..) (hconnect ..)
  | _ => rfl

/-- **Clean drops keep the registries tidy**, and so it does not matter which addresses are used. -/
theorem tidy_of_run (h : reusing.Run (.initial uuidGenerator machine) steps)
    (hd : reusing.Steps (.initial uuidGenerator machine) steps DropsClean) :
    reusing.Along (.initial uuidGenerator machine) steps Tidy := by
  refine along_of_steps (tidy_initial uuidGenerator machine) (fun w step hw hok => ?_) (h.and hd)
  exact (hw.reused hok.1).next (enabled_reused hok.1)
    ((reused_ok fun _ _ _ _ _ => trivial).mpr hok.2)

-- Without clean drops: who is next at the address of a client that dropped in `PLAY_INIT` is told of
-- a login before its own.
example :
    let steps := loginSteps 0 ++
      [.disconnect 0, .connect 0 defaultClientSettings 0 0] ++ loginSteps 1
    reusing.Run emptyServer steps ∧ (reusing.after emptyServer steps).phase 0 = .initial ∧
      ((reusing.after emptyServer steps).traffic 0).isEmpty = false := by
  decide +kernel

/-- **The invariant rule for runs with clean drops.** -/
theorem along_reusing (h0 : I (.initial uuidGenerator machine)) (hP : ∀ w, I w → P w)
    (hconnect : ∀ w this settings id now, ok w (.connect this settings id now))
    (hfree : ∀ w this, Tidy w → I w → w.life this ≠ .live → I (w.free this))
    (hnext : ∀ w step, Tidy w → I w → server.enabled w step → ok w step → I (server.next w step))
    (h : reusing.Run (.initial uuidGenerator machine) steps)
    (hd : reusing.Steps (.initial uuidGenerator machine) steps DropsClean)
    (hok : reusing.Steps (.initial uuidGenerator machine) steps ok) :
    reusing.Along (.initial uuidGenerator machine) steps P := by
  refine (along_of_steps h0 (fun w step hI hstep => ?_)
    ((h.and (tidy_of_run h hd).steps).and hok)).mono hP
  obtain ⟨⟨he, hw⟩, hk⟩ := hstep
  exact hnext _ step (hw.reused he) (reused_of_free hw hI hfree he) (enabled_reused he)
    ((reused_ok hconnect).mpr hk)

/-- **The rule for an exact condition of runs with clean drops.** -/
theorem along_iff_reusing (h0 : I (.initial uuidGenerator machine)) (hP : ∀ w, I w → P w)
    (hconnect : ∀ w this settings id now, ok w (.connect this settings id now))
    (hfree : ∀ w this, Tidy w → I w → w.life this ≠ .live → I (w.free this))
    (hnext : ∀ w step, Tidy w → I w → server.enabled w step → DropsClean w step → ok w step →
      I (server.next w step))
    (hbad : ∀ w step, Tidy w → I w → server.enabled w step → DropsClean w step →
      P (server.next w step) → ok w step)
    (h : reusing.Run (.initial uuidGenerator machine) steps)
    (hd : reusing.Steps (.initial uuidGenerator machine) steps DropsClean) :
    reusing.Along (.initial uuidGenerator machine) steps P ↔
      reusing.Steps (.initial uuidGenerator machine) steps ok := by
  refine along_iff_steps (I := I) h0 hP (fun w step hI hgiven hk => ?_)
    (fun w step hI hgiven hp => ?_) ((h.and (tidy_of_run h hd).steps).and hd)
  all_goals obtain ⟨⟨he, hw⟩, hdrop⟩ := hgiven
  · exact hnext _ step (hw.reused he) (reused_of_free hw hI hfree he) (enabled_reused he)
      ((reused_ok fun _ _ _ _ _ => trivial).mpr hdrop) ((reused_ok hconnect).mpr hk)
  · exact (reused_ok hconnect).mp (hbad _ step (hw.reused he) (reused_of_free hw hI hfree he)
      (enabled_reused he) ((reused_ok fun _ _ _ _ _ => trivial).mpr hdrop) hp)

/-- From the connection to the login state, and away. -/
def leaveSteps (this : StateMachinePtr) : List ServerStep :=
  [.connect this defaultClientSettings 0 0, .packet this handshakeFrame 0, .disconnect this]

end Runs

end Vitamine

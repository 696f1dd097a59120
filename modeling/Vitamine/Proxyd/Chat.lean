import Vitamine.Lib.Room
import Vitamine.Proxyd.Reuse
import Vitamine.Proxyd.Sends

/-!
# The chat

The connections on the player list are in one room: a login joins it, a message is a post, and a
connection that drops in `PLAY` leaves it. A client that connects is new to the room, whoever was at
its address before. `chats_of_run` says that in a run with clean drops every connection has been
sent what it has seen in the room, and so all of them have the same messages in the same order.
-/

namespace Vitamine

open Wire System

namespace World

/-- What a step is to the room. -/
def roomEvents (w : World) (step : ServerStep) : List (Room.Event StateMachinePtr Bytes) :=
  match step with
  | .connect this _ _ _ => [.forget this]
  | .packet this frame _ =>
    if w.phase this = .login ∧ loginStartOf frame ≠ none then [.join this]
    else (w.postOf step).toList.map .post
  | .disconnect this => if w.phase this = .play then [.leave this] else []
  | _ => []

/-- The messages that a connection was sent. -/
def chats (w : World) (q : StateMachinePtr) : List Bytes := w.told ClientboundPacket.chatText? q

end World

section

variable {w : World} {this : StateMachinePtr} {frame : PacketFrame}

/-- A frame changes the player list only by a login. -/
theorem handle_players : (w.handle this frame).globalState.players =
    if w.phase this = .login ∧ loginStartOf frame ≠ none then insert this w.globalState.players
    else w.globalState.players := by
  by_cases hlogin : w.phase this = .login ∧ loginStartOf frame ≠ none
  · obtain ⟨name, hname⟩ := Option.ne_none_iff_exists'.mp hlogin.2
    rw [if_pos hlogin, handle_loginStart hlogin.1 hname, World.onLoginStart_players]
  · rw [if_neg hlogin]
    generalize hw : w.handle this frame = w'
    have he : Effect w this frame w' := hw ▸ handle_effect w this frame
    cases he with
    | quiet _ _ hquiet => exact hquiet.players
    | login hphase hframe => exact absurd ⟨hphase, by simp [hframe]⟩ hlogin
    | confirm => simp [World.onTeleportConfirm_eq]
    | _ => simp

end

/-- The room is as the player list, who has left it is gone, and everybody has been sent what it has
seen. -/
structure Hears (r : Room StateMachinePtr Bytes) (w : World) : Prop where
  present : ∀ p, r.Present p ↔ p ∈ w.globalState.players
  left : ∀ p, r.left p ≠ none → w.life p = .destroyed
  chats : ∀ p, w.chats p = r.inbox p

section

variable {r : Room StateMachinePtr Bytes} {w : World} {step : ServerStep} {this : StateMachinePtr}

theorem hears_initial (uuidGenerator : Bytes → Uuid) (machine : StateMachinePtr → StateMachine) :
    Hears .empty (.initial uuidGenerator machine) where
  present p := by simp [Room.Present, Room.empty, World.initial]
  left p h := absurd rfl h
  chats _ := rfl

/-- Who is gone stays gone. -/
theorem destroyed_next (he : server.enabled w step) {p : StateMachinePtr}
    (hp : w.life p = .destroyed) : (server.next w step).life p = .destroyed := by
  by_cases hsubject : p = step.subject
  · subst hsubject
    cases step with
    | connect this =>
      have hunused : w.life this = .unused := he
      simp [ServerStep.subject, hunused] at hp
    | packet this | error this | tick this =>
      have hlive : w.life this = .live := he
      simp [ServerStep.subject, hlive] at hp
    | disconnect this => simp [ServerStep.subject]
  · rw [(next_unmoved hsubject).life, hp]

/-- A step that is no event of the room. -/
theorem Hears.of_silent (h : Hears r w) (he : server.enabled w step)
    (hplayers : (server.next w step).globalState.players = w.globalState.players)
    (hpost : w.postOf step = none) : Hears r (server.next w step) where
  present p := by rw [hplayers, h.present]
  left p hp := destroyed_next he (h.left p hp)
  chats p := by
    rw [World.chats, told_next_chat, hpost, ← h.chats]
    simp [World.chats]

/-- Who logs in is not in the room and never was. -/
theorem Hears.joined_of_login (h : Hears r w) {p : StateMachinePtr} (hr : Registry w p)
    (hlive : w.life p = .live) (hphase : w.phase p = .login) : r.joined p = none := by
  by_contra hjoined
  by_cases hleft : r.left p = none
  · have hmem : p ∈ w.globalState.players := (h.present p).mp ⟨hjoined, hleft⟩
    rcases (hr.players hmem).2 with hinit | hplay
    · simp [hphase] at hinit
    · simp [hphase] at hplay
  · have hgone := h.left p hleft
    rw [hlive] at hgone
    cases hgone

theorem Hears.login (h : Hears r w) (he : server.enabled w step)
    (hjoined : r.joined step.subject = none)
    (hplayers : (server.next w step).globalState.players =
      insert step.subject w.globalState.players)
    (hpost : w.postOf step = none) : Hears (r.join step.subject) (server.next w step) where
  present p := by rw [Room.present_join hjoined, hplayers, Finset.mem_insert, h.present]
  left p hp := destroyed_next he (h.left p hp)
  chats p := by
    rw [World.chats, told_next_chat, hpost, Room.inbox_join hjoined, ← h.chats]
    simp [World.chats]

theorem Hears.post (h : Hears r w) (he : server.enabled w step) {text : Bytes}
    (hplayers : (server.next w step).globalState.players = w.globalState.players)
    (hpost : w.postOf step = some text) : Hears (r.post text) (server.next w step) where
  present p := by rw [Room.present_post, hplayers, h.present]
  left p hp := destroyed_next he (h.left p hp)
  chats p := by
    rw [World.chats, told_next_chat, hpost, Room.inbox_post, ← h.chats]
    simp only [h.present, Option.toList_some]
    rfl

theorem Hears.leave (h : Hears r w) (hplay : w.phase this = .play)
    (hpresent : r.Present this) : Hears (r.leave this) (w.destroy this) where
  present p := by
    rw [Room.present_leave hpresent, World.destroy_players, if_pos hplay, Finset.mem_erase,
      h.present]
  left p hp := by
    rw [World.destroy_life]
    by_cases hthis : p = this
    · rw [hthis, Function.update_self]
    · rw [Room.left_leave hpresent, Function.update_of_ne hthis] at hp
      rw [Function.update_of_ne hthis, h.left p hp]
  chats p := by
    rw [World.chats, ← next_disconnect, told_next_chat, Room.inbox_leave hpresent, ← h.chats]
    simp [World.chats, World.postOf]

/-- Nobody is in the room at an address at which nobody is. -/
theorem Hears.forget (h : Hears r w) (hplayers : this ∉ w.globalState.players) :
    Hears (r.forget this) (w.free this) where
  present p := by
    rw [Room.present_forget, h.present, free_globalState]
    refine and_iff_right_of_imp fun hp => ?_
    rintro rfl
    exact hplayers hp
  left p hp := by
    have hne : p ≠ this := by
      rintro rfl
      exact hp (Function.update_self ..)
    rw [Room.left_forget hne] at hp
    rw [free_life_ne hne, h.left p hp]
  chats p := by
    unfold World.chats World.told World.sentTo
    by_cases hp : p = this
    · subst hp
      rw [free_traffic_self, Room.inbox_forget_self]
      rfl
    · rw [free_traffic_ne hp, Room.inbox_forget hp]
      exact h.chats p

/-- **The room follows every step.** -/
theorem Hears.next (h : Hears r w) (hw : Tidy w) (he : reusing.enabled w step) :
    Room.system.Run r (w.roomEvents step) ∧
      Hears (Room.system.after r (w.roomEvents step)) (reusing.next w step) := by
  have hserver := enabled_reused he
  cases step with
  | connect this =>
    have hplayers : this ∉ w.globalState.players := fun hp => hw.not_registered he (.inl hp)
    have habsent : ¬ r.Present this := fun hp => hplayers ((h.present this).mp hp)
    exact ⟨steps_cons.mpr ⟨habsent, steps_nil⟩,
      (h.forget hplayers).of_silent hserver rfl rfl⟩
  | packet this frame now =>
    have hlive : w.life this = .live := he
    have hplayers : (server.next w (.packet this frame now)).globalState.players =
        if w.phase this = .login ∧ loginStartOf frame ≠ none then insert this w.globalState.players
        else w.globalState.players := by
      rw [next_packet, handle_players, receive_phase, receive_globalState]
    unfold World.roomEvents
    simp only
    split_ifs at hplayers ⊢ with hlogin
    · have hjoined := h.joined_of_login (hw.registry this) hlive hlogin.1
      have hpost : w.postOf (.packet this frame now) = none := by
        rw [World.postOf, if_neg (by rw [hlogin.1]; decide)]
      exact ⟨steps_cons.mpr ⟨hjoined, steps_nil⟩, h.login hserver hjoined hplayers hpost⟩
    · cases hpost : w.postOf (.packet this frame now) with
      | none => exact ⟨steps_nil, h.of_silent hserver hplayers hpost⟩
      | some text => exact ⟨steps_cons.mpr ⟨trivial, steps_nil⟩, h.post hserver hplayers hpost⟩
  | error => exact ⟨steps_nil, h.of_silent hserver rfl rfl⟩
  | tick this now =>
    refine ⟨steps_nil, h.of_silent hserver ?_ rfl⟩
    rcases onTick_cases w this now with ⟨-, hquiet⟩ | ⟨-, ht⟩
    · exact hquiet.players
    · rw [next_tick, ht, World.disconnectWith_globalState]
  | disconnect this =>
    have hlive : w.life this = .live := he
    unfold World.roomEvents
    simp only
    split_ifs with hplay
    · have hpresent : r.Present this :=
        (h.present this).mpr ((hw.registry this).joined hlive (.inr hplay))
      exact ⟨steps_cons.mpr ⟨hpresent, steps_nil⟩, h.leave hplay hpresent⟩
    · refine ⟨steps_nil, h.of_silent hserver ?_ rfl⟩
      rw [next_disconnect, World.destroy_players, if_neg hplay]

end

/-! ## Runs -/

section Runs

variable {uuidGenerator : Bytes → Uuid} {machine : StateMachinePtr → StateMachine}
  {steps : List ServerStep}

/-- The room of a run. -/
def roomOf (uuidGenerator : Bytes → Uuid) (machine : StateMachinePtr → StateMachine)
    (steps : List ServerStep) : Room StateMachinePtr Bytes :=
  Room.system.after .empty (reusing.image World.roomEvents (.initial uuidGenerator machine) steps)

theorem hears_of_run (h : reusing.Run (.initial uuidGenerator machine) steps)
    (hd : reusing.Steps (.initial uuidGenerator machine) steps DropsClean) :
    Room.system.Run .empty
        (reusing.image World.roomEvents (.initial uuidGenerator machine) steps) ∧
      Hears (roomOf uuidGenerator machine steps)
        (reusing.after (.initial uuidGenerator machine) steps) := by
  have hok := h.and (tidy_of_run h hd).steps
  have hstep : ∀ (r : Room StateMachinePtr Bytes) (w : World) (step : ServerStep), Hears r w →
      (reusing.enabled w step ∧ Tidy w) →
      Room.system.Run r (w.roomEvents step) ∧
        Hears (Room.system.after r (w.roomEvents step)) (reusing.next w step) :=
    fun r w step hears hok => hears.next hok.2 hok.1
  exact run_image hstep (hears_initial uuidGenerator machine) hok

/-- **One chat.** In a run with clean drops, the messages of every connection are what a member of
the room has seen: all that were said since its login, by whomever, in one order. So of two
connections that have logged in, one has been sent the last of what the other has. -/
theorem chats_of_run (h : reusing.Run (.initial uuidGenerator machine) steps)
    (hd : reusing.Steps (.initial uuidGenerator machine) steps DropsClean) :
    let w := reusing.after (.initial uuidGenerator machine) steps
    let events := reusing.image World.roomEvents (.initial uuidGenerator machine) steps
    let room := Room.system.after Room.empty events
    Room.system.Run .empty events ∧
      (∀ p, w.life p = .live → (room.Present p ↔ w.Joined p) ∧ w.chats p = room.inbox p) ∧
        ∀ p q, w.life p = .live → w.life q = .live → w.Joined p → w.Joined q →
          w.chats p <:+ w.chats q ∨ w.chats q <:+ w.chats p := by
  intro w events room
  obtain ⟨hrun, hears⟩ := hears_of_run h hd
  have hpresent : ∀ p, w.life p = .live → (room.Present p ↔ w.Joined p) := by
    intro p hlive
    have hregistry := (tidy_of_run h hd).last.registry p
    exact (hears.present p).trans
      ⟨fun hmem => (hregistry.players hmem).2, fun hjoined => hregistry.joined hlive hjoined⟩
  refine ⟨hrun, fun p hlive => ⟨hpresent p hlive, hears.chats p⟩, ?_⟩
  intro p q hp hq hjp hjq
  rw [hears.chats, hears.chats]
  exact Room.suffix_or_suffix ((hpresent p hp).mpr hjp) ((hpresent q hq).mpr hjq)

/-- A message of one character. -/
def chatFrame (c : Byte) : PacketFrame := ⟨0x03, [1, c]⟩

/-- One player says `x`, another one comes, at the address of a client that left, and both say
something. -/
def chatSteps : List ServerStep :=
  leaveSteps 1 ++ joinSteps 0 2 ++ [.packet 0 (chatFrame 0x78) 0] ++ joinSteps 1 2 ++
    [.packet 1 (chatFrame 0x79) 0, .packet 0 (chatFrame 0x7a) 0]

theorem chats_of_run_two :
    (reusing.after emptyServer chatSteps).chats 1 <:+
        (reusing.after emptyServer chatSteps).chats 0 ∧
      ((reusing.after emptyServer chatSteps).chats 1).length = 2 ∧
        ((reusing.after emptyServer chatSteps).chats 0).length = 3 := by
  have hrun : reusing.Run emptyServer chatSteps := by decide +kernel
  have hearly : reusing.Steps emptyServer chatSteps DropsEarly := by decide +kernel
  obtain ⟨-, -, hsuffix⟩ := chats_of_run hrun (hearly.mono fun _ _ hd => hd.clean)
  have hshort : ((reusing.after emptyServer chatSteps).chats 1).length = 2 := by decide +kernel
  have hlong : ((reusing.after emptyServer chatSteps).chats 0).length = 3 := by decide +kernel
  refine ⟨?_, hshort, hlong⟩
  rcases hsuffix 1 0 (by decide +kernel) (by decide +kernel) (by decide +kernel)
    (by decide +kernel) with h | h
  · exact h
  · have hle : ((reusing.after emptyServer chatSteps).chats 0).length ≤
        ((reusing.after emptyServer chatSteps).chats 1).length := h.length_le
    omega

end Runs

end Vitamine

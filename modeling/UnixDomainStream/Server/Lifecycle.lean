import Mathlib.Data.List.Basic

/-!
# The life of one accepted peer

What the server owes one peer id, apart from its code: a connection is accepted,
announced once it is verified, reported while it is exposed, and reported closed.
The queued work about the peer is an ordered list of stages.  A move takes one of
them a step further or reflects what the I/O thread did to the peer.  Moves are
`calm` when nothing stops the server, only exposed peers are closed or asked, and
no peer is declared ready after its socket is closed.
-/

namespace UnixDomainStream.Server

/-- Queued work about one peer.  The first four are signals of the peer object,
which are dropped with it. -/
inductive Stage where
  | ready
  | message
  | error
  | closed
  | verify
  | deliver
  | reportError
  | reportClosed
  | peerClosed
  deriving DecidableEq, Repr

namespace Stage

def isSignal : Stage → Bool
  | .ready | .message | .error | .closed => true
  | _ => false

/-- On the way to the announcement. -/
def announces : Stage → Bool
  | .ready | .verify => true
  | _ => false

/-- On the way to the report of the close. -/
def closes : Stage → Bool
  | .closed | .reportClosed | .peerClosed => true
  | _ => false

/-- The first stage may stand before the second in a calm queue. -/
def Precedes : Stage → Stage → Prop
  | .closed, later => later ≠ .ready
  | .reportClosed, later => later ≠ .ready
  | .peerClosed, later => later.announces = false
  | .ready, later => later ≠ .reportClosed ∧ later ≠ .peerClosed
  | _, _ => True

theorem precedes_ready {earlier : Stage} (live : earlier.closes = false) :
    earlier.Precedes .ready := by
  cases earlier <;> simp_all [Precedes, closes]

theorem precedes_verify {earlier : Stage} (other : earlier ≠ .peerClosed) :
    earlier.Precedes .verify := by
  cases earlier <;> simp_all [Precedes]

theorem precedes_peerClosed {earlier : Stage} (other : earlier ≠ .ready) :
    earlier.Precedes .peerClosed := by
  cases earlier <;> simp_all [Precedes, announces]

theorem precedes_plain (earlier : Stage) {later : Stage} (unannounced : later.announces = false)
    (unreported : later ≠ .reportClosed ∧ later ≠ .peerClosed) : earlier.Precedes later := by
  cases earlier <;> cases later <;> simp_all [Precedes, announces]

end Stage

/-- What the outside learns about one peer. -/
inductive Mark where
  | accepted
  | verified (verdict : Bool)
  | connected
  | data
  | closed
  deriving DecidableEq, Repr

structure Lifecycle where
  created : Bool
  /-- The peer object is alive. -/
  alive : Bool
  isOpen : Bool
  ready : Bool
  /-- The id is a key of the peer table. -/
  listed : Bool
  exposed : Bool
  /-- Something may come to close the peer from this side. -/
  closable : Bool
  /-- The close that notifies on completion is queued. -/
  closing : Bool
  /-- The erasure that follows the `closed` signal is queued. -/
  erasing : Bool
  /-- The server is being stopped. -/
  stopping : Bool
  stages : List Stage
  deriving DecidableEq, Repr

namespace Lifecycle

/-- Before the connection is accepted. -/
def unborn : Lifecycle where
  created := false
  alive := false
  isOpen := false
  ready := true
  listed := false
  exposed := false
  closable := false
  closing := false
  erasing := false
  stopping := false
  stages := []

/-- Some queued work vanishes, but no obligation. -/
structure Fades (before after : Lifecycle) : Prop where
  created : after.created = before.created
  alive : after.alive = before.alive
  isOpen : after.isOpen = before.isOpen
  ready : after.ready = before.ready
  listed : after.listed = before.listed
  exposed : after.exposed = before.exposed
  closable : after.closable = true → before.closable = true
  closing : after.closing = before.closing
  erasing : after.erasing = true → before.erasing = true
  stopping : after.stopping = true → before.stopping = true
  stages : after.stages = before.stages

inductive Move (calm : Prop) : Lifecycle → List Mark → Lifecycle → Prop where
  | fade {before after : Lifecycle} (fades : Fades before after) : Move calm before [] after
  | create {life : Lifecycle} (fresh : life.created = false) :
      Move calm life [.accepted]
        { life with created := true, alive := true, isOpen := true, ready := false, listed := true }
  | raise {life : Lifecycle} (alive : life.alive = true) (unready : life.ready = false)
      (opened : calm → life.isOpen = true) :
      Move calm life [] { life with ready := true, stages := life.stages ++ [.ready] }
  | message {life : Lifecycle} (alive : life.alive = true) :
      Move calm life [] { life with stages := life.stages ++ [.message] }
  | error {life : Lifecycle} (alive : life.alive = true) :
      Move calm life [] { life with stages := life.stages ++ [.error] }
  | shut {life : Lifecycle} (alive : life.alive = true) (opened : life.isOpen = true) :
      Move calm life [] { life with isOpen := false, stages := life.stages ++ [.closed] }
  | finish {life : Lifecycle} (closing : life.closing = true) (shut : life.isOpen = false) :
      Move calm life [] { life with stages := life.stages ++ [.peerClosed] }
  | settle {life : Lifecycle} (reported : .peerClosed ∈ life.stages) :
      Move calm life [] { life with closing := false }
  | release {life : Lifecycle} (closable : life.closable = true) (listed : life.listed = true) :
      Move calm life [] { life with listed := false, closing := true }
  | erase {life : Lifecycle} (erasing : life.erasing = true) :
      Move calm life [] { life with listed := false }
  | dismiss {life : Lifecycle} (stopping : life.stopping = true) :
      Move calm life [] { life with listed := false }
  | destroy {life : Lifecycle} (unlisted : life.listed = false) (finished : life.closing = false) :
      Move calm life []
        { life with
          alive := false
          isOpen := false
          ready := true
          stages := life.stages.filter fun stage => !stage.isSignal }
  | takeReady {life : Lifecycle} {rest : List Stage} (head : life.stages = .ready :: rest) :
      Move calm life [] { life with stages := rest ++ [.verify] }
  | takeMessage {life : Lifecycle} {rest : List Stage} (head : life.stages = .message :: rest)
      (delivers : Bool) :
      Move calm life [] { life with stages := rest ++ if delivers then [.deliver] else [] }
  | takeError {life : Lifecycle} {rest : List Stage} (head : life.stages = .error :: rest) :
      Move calm life [] { life with stages := .reportError :: rest }
  | takeClosed {life : Lifecycle} {rest : List Stage} (head : life.stages = .closed :: rest) :
      Move calm life [] { life with erasing := true, stages := .reportClosed :: rest }
  | reportError {life : Lifecycle} {rest : List Stage}
      (head : life.stages = .reportError :: rest) :
      Move calm life [] { life with stages := rest ++ [.deliver] }
  | reportClosed {life : Lifecycle} {rest : List Stage}
      (head : life.stages = .reportClosed :: rest) :
      Move calm life [] { life with stages := rest ++ [.peerClosed] }
  | discard {life : Lifecycle} {rest : List Stage} (head : life.stages = .verify :: rest) :
      Move calm life [] { life with stages := rest }
  | expose {life : Lifecycle} {rest : List Stage} (head : life.stages = .verify :: rest) :
      Move calm life [.verified true, .connected] { life with exposed := true, stages := rest }
  | reject {life : Lifecycle} {rest : List Stage} (head : life.stages = .verify :: rest) :
      Move calm life [.verified false] { life with closable := true, stages := rest }
  | deliver {life : Lifecycle} {rest : List Stage} (head : life.stages = .deliver :: rest) :
      Move calm life (if life.exposed then [.data] else []) { life with stages := rest }
  | peerClosed {life : Lifecycle} {rest : List Stage} (head : life.stages = .peerClosed :: rest) :
      Move calm life (if life.exposed then [.closed] else [])
        { life with exposed := false, stages := rest }
  | hide {life : Lifecycle} (stopping : life.stopping = true) :
      Move calm life [] { life with exposed := false }
  | ask {life : Lifecycle} (asked : calm → life.exposed = true) :
      Move calm life [] { life with closable := true }
  | stop {life : Lifecycle} (wild : ¬ calm) : Move calm life [] { life with stopping := true }

/-- Moves in a row, with the marks they leave. -/
inductive Moves (calm : Prop) : Lifecycle → List Mark → Lifecycle → Prop where
  | refl (life : Lifecycle) : Moves calm life [] life
  | next {first second third : Lifecycle} {marks more : List Mark}
      (moves : Moves calm first marks second) (move : Move calm second more third) :
      Moves calm first (marks ++ more) third

namespace Moves

variable {calm : Prop} {first second third : Lifecycle} {marks more : List Mark}

theorem single (move : Move calm first marks second) : Moves calm first marks second := by
  simpa using (Moves.refl first).next move

theorem trans (left : Moves calm first marks second) (right : Moves calm second more third) :
    Moves calm first (marks ++ more) third := by
  induction right with
  | refl => simpa using left
  | next _ move ih =>
      rw [← List.append_assoc]
      exact ih.next move

/-- A chain whose first part leaves no mark. -/
theorem silent_trans (left : Moves calm first [] second) (right : Moves calm second more third) :
    Moves calm first more third := left.trans right

theorem fade (moves : Moves calm first marks second) (fades : Fades second third) :
    Moves calm first marks third := by
  simpa using moves.next (.fade fades)

/-- A property of the marks and the life that every move keeps. -/
theorem invariant {holds : List Mark → Lifecycle → Prop} (initially : holds [] first)
    (preserved : ∀ {marks before more after}, holds marks before → Move calm before more after →
      holds (marks ++ more) after)
    (moves : Moves calm first marks second) : holds marks second := by
  induction moves with
  | refl => exact initially
  | next _ move ih => exact preserved ih move

/-! ### What one handler of the peer reports -/

variable {life : Lifecycle}

theorem raised (alive : life.alive = true) {raises : Bool}
    (unready : raises = true → life.ready = false)
    (opened : raises = true → calm → life.isOpen = true) :
    Moves calm life []
      { life with
        ready := life.ready || raises
        stages := life.stages ++ if raises then [.ready] else [] } := by
  cases raises with
  | false => simpa using Moves.refl life
  | true => simpa using single (.raise alive (unready rfl) (opened rfl))

theorem reported (alive : life.alive = true) (message failed : Bool) :
    Moves calm life []
      { life with
        stages := life.stages ++
          ((if message then [.message] else []) ++ if failed then [.error] else []) } := by
  cases message with
  | false =>
      cases failed with
      | false => simpa using Moves.refl life
      | true => exact single (.error alive)
  | true =>
      cases failed with
      | false => exact single (.message alive)
      | true => simpa using (single (.message alive)).silent_trans (single (.error alive))

theorem closed (alive : life.alive = true) {shuts : Bool}
    (opened : shuts = true → life.isOpen = true) :
    Moves calm life []
      { life with
        isOpen := life.isOpen && !shuts
        stages := life.stages ++ if shuts then [.closed] else [] } := by
  cases shuts with
  | false => simpa using Moves.refl life
  | true => simpa using single (.shut alive (opened rfl))

theorem finished {finishes : Bool}
    (closing : finishes = true → life.closing = true ∧ life.isOpen = false) :
    Moves calm life []
      { life with stages := life.stages ++ if finishes then [.peerClosed] else [] } := by
  cases finishes with
  | false => simpa using Moves.refl life
  | true => exact single (.finish (closing rfl).1 (closing rfl).2)

/-- A whole handler reports in this order. -/
theorem handled (alive : life.alive = true) (message failed : Bool)
    {raises shuts finishes : Bool}
    (unready : raises = true → life.ready = false)
    (opened : raises = true → calm → life.isOpen = true)
    (shutting : shuts = true → life.isOpen = true)
    (closing : finishes = true → life.closing = true ∧ (life.isOpen && !shuts) = false) :
    Moves calm life []
      { life with
        ready := life.ready || raises
        isOpen := life.isOpen && !shuts
        stages := life.stages ++
          ((if raises then [.ready] else []) ++
            ((if message then [.message] else []) ++ (if failed then [.error] else []) ++
              if shuts then [.closed] else []) ++
            if finishes then [.peerClosed] else []) } := by
  let announced : Lifecycle :=
    { life with
      ready := life.ready || raises
      stages := life.stages ++ if raises then [.ready] else [] }
  let told : Lifecycle :=
    { announced with
      stages := announced.stages ++
        ((if message then [.message] else []) ++ if failed then [.error] else []) }
  let shut : Lifecycle :=
    { told with
      isOpen := told.isOpen && !shuts
      stages := told.stages ++ if shuts then [.closed] else [] }
  have first : Moves calm life [] announced := raised alive unready opened
  have second : Moves calm announced [] told := @reported calm announced alive message failed
  have third : Moves calm told [] shut := @closed calm told alive shuts shutting
  have fourth := @finished calm shut finishes closing
  simpa [announced, told, shut, List.append_assoc] using
    ((first.silent_trans second).silent_trans third).silent_trans fourth

end Moves

/-! ## The trace -/

/-- How far the life of a peer has come, as told by its marks. -/
inductive Phase where
  | unborn
  | accepted
  | rejected
  | connected
  | closed
  deriving DecidableEq, Repr

/-- The marks of a phase, with `count` notifications of data. -/
def Phase.marks (count : Nat) : Phase → List Mark
  | .unborn => []
  | .accepted => [.accepted]
  | .rejected => [.accepted, .verified false]
  | .connected => [.accepted, .verified true, .connected] ++ List.replicate count .data
  | .closed => [.accepted, .verified true, .connected] ++ List.replicate count .data ++ [.closed]

/-- The phase after a mark. -/
def Phase.next (phase : Phase) : Mark → Phase
  | .accepted => .accepted
  | .verified false => .rejected
  | .verified true => .connected
  | .connected => .connected
  | .data => phase
  | .closed => .closed

def Phase.after (phase : Phase) (marks : List Mark) : Phase := marks.foldl Phase.next phase

/-- `verify_peer_` has been called. -/
def Phase.verified : Phase → Nat
  | .unborn | .accepted => 0
  | _ => 1

/-- The announcements still queued. -/
def announcements (life : Lifecycle) : Nat := life.stages.countP Stage.announces

/-- What the phase says about the life. -/
structure Traced (phase : Phase) (life : Lifecycle) : Prop where
  silent : life.created = false → phase = .unborn ∧ life.stages = []
  born : life.created = true → phase ≠ .unborn
  created : life.alive = true → life.created = true
  alive : life.listed = true ∨ life.closing = true ∨ life.isOpen = true → life.alive = true
  announced : life.announcements + phase.verified ≤ life.ready.toNat
  exposed : life.exposed = true → phase = .connected
  shut : ∀ stage ∈ life.stages, stage.closes = true → life.isOpen = false
  ended : phase = .closed → life.isOpen = false

namespace Traced

theorem initial : Traced .unborn unborn := by
  constructor <;> simp [Lifecycle.unborn, announcements, Phase.verified]

variable {phase : Phase} {life : Lifecycle}

/-- A queued stage belongs to a connection that was accepted. -/
theorem created_of_mem (traced : Traced phase life) {stage : Stage}
    (queued : stage ∈ life.stages) : life.created = true := by
  cases created : life.created with
  | true => rfl
  | false =>
      rw [(traced.silent created).2] at queued
      cases queued

theorem created_of_head (traced : Traced phase life) {stage : Stage} {rest : List Stage}
    (head : life.stages = stage :: rest) : life.created = true :=
  traced.created_of_mem (head ▸ List.mem_cons_self)

/-- While the announcement is queued, the peer has not been verified. -/
theorem accepted_of_mem (traced : Traced phase life) {stage : Stage}
    (queued : stage ∈ life.stages) (announces : stage.announces = true) :
    phase = .accepted := by
  have born := traced.born (traced.created_of_mem queued)
  have some : 0 < life.announcements := List.countP_pos_iff.mpr ⟨stage, queued, announces⟩
  have once := traced.announced
  have bit := Bool.toNat_le life.ready
  cases phase with
  | accepted => rfl
  | unborn => exact absurd rfl born
  | _ =>
      simp only [Phase.verified] at once
      omega

/-- Other stages for an accepted connection. -/
theorem restage (traced : Traced phase life) (created : life.created = true)
    {stages : List Stage}
    (announced : stages.countP Stage.announces ≤ life.announcements)
    (shut : ∀ stage ∈ stages, stage.closes = true → life.isOpen = false) :
    Traced phase { life with stages } where
  silent fresh := by rw [created] at fresh; cases fresh
  born := traced.born
  created := traced.created
  alive := traced.alive
  announced := Nat.le_trans (Nat.add_le_add_right announced _) traced.announced
  exposed := traced.exposed
  shut := shut
  ended := traced.ended

/-- A new stage of a peer that is alive. -/
theorem push (traced : Traced phase life) (alive : life.alive = true) {stage : Stage}
    (unannounced : stage.announces = false) (closes : stage.closes = true → life.isOpen = false) :
    Traced phase { life with stages := life.stages ++ [stage] } := by
  refine traced.restage (traced.created alive) ?_ ?_
  · simp [announcements, unannounced]
  · intro later member ends
    rcases List.mem_append.mp member with old | new
    · exact traced.shut later old ends
    · rw [List.mem_singleton.mp new] at ends
      exact closes ends

/-- A stage that leads to stages of its kind. -/
theorem advance (traced : Traced phase life) {stage : Stage} {rest : List Stage}
    (head : life.stages = stage :: rest) (front back : List Stage)
    (announces : (front ++ back).countP Stage.announces ≤ if stage.announces then 1 else 0)
    (closes : ∀ later ∈ front ++ back, later.closes = true → stage.closes = true) :
    Traced phase { life with stages := front ++ (rest ++ back) } := by
  refine traced.restage (traced.created_of_head head) ?_ ?_
  · simp only [announcements, head, List.countP_cons, List.countP_append] at announces ⊢
    omega
  · intro later member ends
    have kept : later ∈ rest ∨ later ∈ front ++ back := by
      simp only [List.mem_append] at member ⊢
      tauto
    rcases kept with old | new
    · exact traced.shut later (by simp [head, old]) ends
    · exact traced.shut stage (by simp [head]) (closes later new ends)

theorem fade {after : Lifecycle} (traced : Traced phase life) (fades : Fades life after) :
    Traced phase after where
  silent := by simpa only [fades.created, fades.stages] using traced.silent
  born := by simpa only [fades.created] using traced.born
  created := by simpa only [fades.alive, fades.created] using traced.created
  alive := by
    simpa only [fades.listed, fades.closing, fades.isOpen, fades.alive] using traced.alive
  announced := by
    simpa only [announcements, fades.stages, fades.ready] using traced.announced
  exposed := by simpa only [fades.exposed] using traced.exposed
  shut := by simpa only [fades.stages, fades.isOpen] using traced.shut
  ended := by simpa only [fades.isOpen] using traced.ended

/-- `ensure_ready()` of a peer that is not ready yet. -/
theorem raise (traced : Traced phase life) (alive : life.alive = true)
    (unready : life.ready = false) :
    Traced phase { life with ready := true, stages := life.stages ++ [.ready] } where
  silent fresh := by
    have created := traced.created alive
    rw [created] at fresh
    cases fresh
  born := traced.born
  created := traced.created
  alive := traced.alive
  announced := by
    have none := traced.announced
    simp only [unready, announcements, Bool.toNat_false] at none
    simp only [announcements, List.countP_append, List.countP_singleton, Stage.announces, if_true,
      Bool.toNat_true]
    omega
  exposed := traced.exposed
  shut stage member ends := by
    rcases List.mem_append.mp member with old | new
    · exact traced.shut stage old ends
    · rw [List.mem_singleton.mp new] at ends
      cases ends
  ended := traced.ended

/-- The socket is closed. -/
theorem close (traced : Traced phase life) (alive : life.alive = true) :
    Traced phase { life with isOpen := false, stages := life.stages ++ [.closed] } where
  silent fresh := by
    have created := traced.created alive
    rw [created] at fresh
    cases fresh
  born := traced.born
  created := traced.created
  alive _ := alive
  announced := by simpa [announcements, Stage.announces] using traced.announced
  exposed := traced.exposed
  shut _ _ _ := rfl
  ended _ := rfl

/-- The peer object ends with its signals. -/
theorem destroy (traced : Traced phase life) (unlisted : life.listed = false)
    (finished : life.closing = false) :
    Traced phase
      { life with
        alive := false
        isOpen := false
        ready := true
        stages := life.stages.filter fun stage => !stage.isSignal } where
  silent fresh := ⟨(traced.silent fresh).1, by rw [(traced.silent fresh).2]; rfl⟩
  born := traced.born
  created gone := nomatch gone
  alive held := by simp [unlisted, finished] at held
  announced := by
    have fewer : (life.stages.filter fun stage => !stage.isSignal).countP Stage.announces ≤
        life.stages.countP Stage.announces := List.filter_sublist.countP_le
    have once := traced.announced
    have bit := Bool.toNat_le life.ready
    simp only [announcements, Bool.toNat_true] at once ⊢
    omega
  exposed := traced.exposed
  shut _ _ _ := rfl
  ended _ := rfl

/-- The answer of `verify_peer_` uses up the announcement. -/
theorem verified (traced : Traced phase life) {rest : List Stage}
    (head : life.stages = .verify :: rest) {phase' : Phase}
    (answered : phase' = .rejected ∨ phase' = .connected) {exposed : Bool} (connected : exposed = true → phase' = .connected) (closable : Bool) :
    Traced phase' { life with exposed, closable, stages := rest } where
  silent fresh := by
    have created := traced.created_of_head head
    rw [created] at fresh
    cases fresh
  born _ := by rcases answered with rfl | rfl <;> nofun
  created := traced.created
  alive := traced.alive
  announced := by
    have once := traced.announced
    have verified : phase'.verified = 1 := by rcases answered with rfl | rfl <;> rfl
    simp only [announcements, head, List.countP_cons, Stage.announces, if_true] at once ⊢
    omega
  exposed := connected
  shut stage member := traced.shut stage (by simp [head, member])
  ended finished := by rcases answered with rfl | rfl <;> cases finished

/-- A peer is no longer exposed. -/
theorem conceal (traced : Traced phase life) {phase' : Phase} (born : phase' ≠ .unborn)
    (verified : phase'.verified = phase.verified) (created : life.created = true)
    (ended : phase' = .closed → life.isOpen = false) :
    Traced phase' { life with exposed := false } where
  silent fresh := by rw [created] at fresh; cases fresh
  born _ := born
  created := traced.created
  alive := traced.alive
  announced := by rw [verified]; exact traced.announced
  exposed shown := nomatch shown
  shut := traced.shut
  ended := ended

end Traced

/-- The marks continue those of the phase. -/
def Phase.Continues (phase : Phase) (marks : List Mark) : Prop :=
  ∀ count, ∃ count', phase.marks count ++ marks = (phase.after marks).marks count'

theorem Phase.continues_nil (phase : Phase) : phase.Continues [] :=
  fun count => ⟨count, by simp [Phase.after]⟩

/-- Every move keeps the life in step with its marks. -/
theorem Traced.move {calm : Prop} {phase : Phase} {before after : Lifecycle} {marks : List Mark}
    (traced : Traced phase before) (move : Move calm before marks after) :
    Traced (phase.after marks) after ∧ phase.Continues marks := by
  cases move with
  | fade fades => exact ⟨traced.fade fades, phase.continues_nil⟩
  | create fresh =>
      obtain ⟨rfl, empty⟩ := traced.silent fresh
      refine ⟨?_, fun count => ⟨0, rfl⟩⟩
      constructor
      case exposed => exact fun shown => nomatch traced.exposed shown
      all_goals simp [announcements, empty, Phase.after, Phase.next, Phase.verified]
  | raise alive unready opened => exact ⟨traced.raise alive unready, phase.continues_nil⟩
  | message alive => exact ⟨traced.push alive rfl nofun, phase.continues_nil⟩
  | error alive => exact ⟨traced.push alive rfl nofun, phase.continues_nil⟩
  | shut alive opened => exact ⟨traced.close alive, phase.continues_nil⟩
  | finish closing shut =>
      have alive := traced.alive (.inr (.inl closing))
      exact ⟨traced.push alive rfl fun _ => shut, phase.continues_nil⟩
  | settle reported =>
      refine ⟨{ traced with alive := fun held => ?_ }, phase.continues_nil⟩
      exact traced.alive (by simpa using held.imp_right fun held => .inr (by simpa using held))
  | release closable listed =>
      have alive := traced.alive (.inl listed)
      exact ⟨{ traced with alive := fun _ => alive }, phase.continues_nil⟩
  | erase erasing =>
      refine ⟨{ traced with alive := fun held => ?_ }, phase.continues_nil⟩
      exact traced.alive (.inr (by simpa using held))
  | dismiss stopping =>
      refine ⟨{ traced with alive := fun held => ?_ }, phase.continues_nil⟩
      exact traced.alive (.inr (by simpa using held))
  | destroy unlisted finished => exact ⟨traced.destroy unlisted finished, phase.continues_nil⟩
  | takeReady head =>
      exact ⟨traced.advance head [] [.verify] (by decide) (by decide), phase.continues_nil⟩
  | takeMessage head delivers =>
      refine ⟨traced.advance head [] _ ?_ ?_, phase.continues_nil⟩
      · cases delivers <;> decide
      · cases delivers <;> decide
  | takeError head =>
      have taken := traced.advance head [.reportError] [] (by decide) (by decide)
      rw [List.append_nil] at taken
      exact ⟨taken, phase.continues_nil⟩
  | takeClosed head =>
      have taken := traced.advance head [.reportClosed] [] (by decide) (by decide)
      rw [List.append_nil] at taken
      exact ⟨{ taken with }, phase.continues_nil⟩
  | reportError head =>
      exact ⟨traced.advance head [] [.deliver] (by decide) (by decide), phase.continues_nil⟩
  | reportClosed head =>
      exact ⟨traced.advance head [] [.peerClosed] (by decide) (by decide), phase.continues_nil⟩
  | discard head =>
      have taken := traced.advance head [] [] (by decide) (by decide)
      rw [List.append_nil] at taken
      exact ⟨taken, phase.continues_nil⟩
  | expose head =>
      obtain rfl := traced.accepted_of_mem (head ▸ List.mem_cons_self) rfl
      exact ⟨traced.verified head (.inr rfl) (fun _ => rfl) _, fun count => ⟨0, rfl⟩⟩
  | reject head =>
      obtain rfl := traced.accepted_of_mem (head ▸ List.mem_cons_self) rfl
      have hidden : before.exposed = true → Phase.accepted = .connected := traced.exposed
      exact ⟨traced.verified head (.inl rfl) (fun shown => nomatch hidden shown) _,
        fun count => ⟨0, rfl⟩⟩
  | deliver head =>
      have taken := traced.advance head [] [] (by decide) (by decide)
      rw [List.append_nil] at taken
      by_cases shown : before.exposed = true
      · rw [if_pos shown]
        obtain rfl := traced.exposed shown
        refine ⟨taken, fun count => ⟨count + 1, ?_⟩⟩
        simp [Phase.marks, Phase.after, Phase.next, List.replicate_succ']
      · rw [if_neg shown]
        exact ⟨taken, phase.continues_nil⟩
  | peerClosed head =>
      have taken := traced.advance head [] [] (by decide) (by decide)
      have created := traced.created_of_head head
      have shut : before.isOpen = false :=
        traced.shut .peerClosed (head ▸ List.mem_cons_self) rfl
      rw [List.append_nil] at taken
      cases shown : before.exposed with
      | false =>
          exact ⟨taken.conceal (traced.born created) rfl created fun _ => shut,
            phase.continues_nil⟩
      | true =>
          obtain rfl := traced.exposed shown
          exact ⟨taken.conceal nofun rfl created fun _ => shut, fun count => ⟨count, rfl⟩⟩
  | hide stopping => exact ⟨{ traced with exposed := nofun }, phase.continues_nil⟩
  | ask asked => exact ⟨{ traced with }, phase.continues_nil⟩
  | stop wild => exact ⟨{ traced with }, phase.continues_nil⟩

/-- The marks of a life are those of its phase. -/
def InPhase (marks : List Mark) (life : Lifecycle) : Prop :=
  ∃ phase count, marks = Phase.marks count phase ∧ Traced phase life

theorem Moves.inPhase {calm : Prop} {marks : List Mark} {life : Lifecycle}
    (moves : Moves calm unborn marks life) : InPhase marks life := by
  refine moves.invariant ⟨.unborn, 0, rfl, Traced.initial⟩ ?_
  rintro marks before more after ⟨phase, count, rfl, traced⟩ move
  obtain ⟨traced', continues⟩ := traced.move move
  obtain ⟨count', same⟩ := continues count
  exact ⟨_, count', same, traced'⟩

/-- An erasure is queued for a connection that was accepted only. -/
theorem Moves.created_of_erasing {calm : Prop} {marks : List Mark} {life : Lifecycle}
    (moves : Moves calm unborn marks life) : life.erasing = true → life.created = true := by
  have kept : InPhase marks life ∧ (life.erasing = true → life.created = true) := by
    refine @Moves.invariant calm unborn life marks
      (fun marks life => InPhase marks life ∧ (life.erasing = true → life.created = true))
      ⟨⟨.unborn, 0, rfl, Traced.initial⟩, nofun⟩ ?_ moves
    rintro marks before more after ⟨⟨phase, count, rfl, traced⟩, created⟩ move
    obtain ⟨traced', continues⟩ := traced.move move
    obtain ⟨count', same⟩ := continues count
    refine ⟨⟨_, count', same, traced'⟩, ?_⟩
    cases move with
    | fade fades =>
        intro erasing
        rw [fades.created]
        exact created (fades.erasing erasing)
    | create fresh => exact fun _ => rfl
    | takeClosed head => exact fun _ => traced.created_of_head head
    | _ => exact created
  exact kept.2

/-- An accepted connection remains accepted. -/
theorem Moves.created {calm : Prop} {before after : Lifecycle} {marks : List Mark}
    (moves : Moves calm before marks after) (created : before.created = true) :
    after.created = true := by
  induction moves with
  | refl => exact created
  | next _ move ih =>
      cases move with
      | fade fades => exact fades.created.trans ih
      | create fresh => rfl
      | _ => exact ih

/-- A peer object that has ended with no work left. -/
structure Over (life : Lifecycle) : Prop where
  created : life.created = true
  dead : life.alive = false
  idle : life.stages = []

/-- Nothing more is told about it. -/
theorem Over.moves {calm : Prop} {phase : Phase} {before after : Lifecycle} {marks : List Mark}
    (gone : Over before) (traced : Traced phase before) (moves : Moves calm before marks after) :
    marks = [] ∧ Over after := by
  have kept : marks = [] ∧ Over after ∧ Traced phase after := by
    induction moves with
    | refl => exact ⟨rfl, gone, traced⟩
    | next _ move ih =>
        obtain ⟨rfl, gone, traced⟩ := ih
        have advanced := (traced.move move).1
        have living : ∀ {life : Lifecycle}, Over life → life.alive = true → False :=
          fun gone alive => Bool.false_ne_true (gone.dead.symm.trans alive)
        have working : ∀ {life : Lifecycle} {stage : Stage} {rest : List Stage}, Over life →
            life.stages = stage :: rest → False :=
          fun gone head => List.cons_ne_nil _ _ (head.symm.trans gone.idle)
        cases move with
        | fade fades =>
            exact ⟨rfl, ⟨fades.created.trans gone.created, fades.alive.trans gone.dead,
              fades.stages.trans gone.idle⟩, advanced⟩
        | create fresh => exact absurd (gone.created.symm.trans fresh) (by decide)
        | raise alive => exact (living gone alive).elim
        | message alive => exact (living gone alive).elim
        | error alive => exact (living gone alive).elim
        | shut alive => exact (living gone alive).elim
        | finish closing => exact (living gone (traced.alive (.inr (.inl closing)))).elim
        | settle reported =>
            rw [gone.idle] at reported
            cases reported
        | release _ listed => exact (living gone (traced.alive (.inl listed))).elim
        | erase => exact ⟨rfl, ⟨gone.created, gone.dead, gone.idle⟩, advanced⟩
        | dismiss => exact ⟨rfl, ⟨gone.created, gone.dead, gone.idle⟩, advanced⟩
        | destroy =>
            refine ⟨rfl, ⟨gone.created, rfl, ?_⟩, advanced⟩
            simp [gone.idle]
        | takeReady head => exact (working gone head).elim
        | takeMessage head => exact (working gone head).elim
        | takeError head => exact (working gone head).elim
        | takeClosed head => exact (working gone head).elim
        | reportError head => exact (working gone head).elim
        | reportClosed head => exact (working gone head).elim
        | discard head => exact (working gone head).elim
        | expose head => exact (working gone head).elim
        | reject head => exact (working gone head).elim
        | deliver head => exact (working gone head).elim
        | peerClosed head => exact (working gone head).elim
        | hide => exact ⟨rfl, ⟨gone.created, gone.dead, gone.idle⟩, advanced⟩
        | ask => exact ⟨rfl, ⟨gone.created, gone.dead, gone.idle⟩, advanced⟩
        | stop => exact ⟨rfl, ⟨gone.created, gone.dead, gone.idle⟩, advanced⟩
  exact ⟨kept.1, kept.2.1⟩

end Lifecycle

end UnixDomainStream.Server

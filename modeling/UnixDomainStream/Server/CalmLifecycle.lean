import UnixDomainStream.Server.Lifecycle

/-!
# Calm lives

When nothing stops the server, an announced peer is either connected or its close
is on its way to be reported.
-/

namespace UnixDomainStream.Server.Lifecycle

/-- The close of the peer is still ahead or on its way to be reported. -/
def Owes (life : Lifecycle) : Prop :=
  (life.listed = true ∧ (life.isOpen = true ∨ .closed ∈ life.stages)) ∨
    .reportClosed ∈ life.stages ∨ .peerClosed ∈ life.stages ∨ life.closing = true

/-- What calm moves keep. -/
structure Sound (phase : Phase) (life : Lifecycle) : Prop where
  traced : Traced phase life
  running : life.stopping = false
  shown : phase = .connected → life.exposed = true
  verified : life.closable = true ∨ life.closing = true → phase.verified = 1
  order : life.stages.Pairwise Stage.Precedes
  once : life.stages.count .closed + life.isOpen.toNat ≤ 1
  erased : life.erasing = true →
    life.created = true ∧ life.isOpen = false ∧ .closed ∉ life.stages
  listed : life.ready = false → life.isOpen = true → life.listed = true
  owed : life.exposed = true ∨ 0 < life.announcements → life.Owes

namespace Sound

theorem initial : Sound .unborn unborn := by
  refine ⟨Traced.initial, rfl, nofun, ?_, .nil, ?_, nofun, nofun, ?_⟩
  all_goals simp [unborn, announcements]

variable {phase : Phase} {life : Lifecycle}

theorem fade {after : Lifecycle} (sound : Sound phase life) (fades : Fades life after) :
    Sound phase after where
  traced := sound.traced.fade fades
  running := by
    have running := sound.running
    cases stopping : after.stopping with
    | false => rfl
    | true => rw [fades.stopping stopping] at running; cases running
  shown := by simpa only [fades.exposed] using sound.shown
  verified asked :=
    sound.verified (asked.imp fades.closable fun closing => by rwa [fades.closing] at closing)
  order := by simpa only [fades.stages] using sound.order
  once := by simpa only [fades.stages, fades.isOpen] using sound.once
  erased erasing := by
    simpa only [fades.created, fades.isOpen, fades.stages] using
      sound.erased (fades.erasing erasing)
  listed := by simpa only [fades.ready, fades.isOpen, fades.listed] using sound.listed
  owed := by
    simpa only [Owes, announcements, fades.exposed, fades.stages, fades.listed, fades.isOpen,
      fades.closing] using sound.owed

/-- A verified peer is ready, and its announcement is done. -/
theorem announced (sound : Sound phase life) (verified : phase.verified = 1) :
    life.announcements = 0 ∧ life.ready = true := by
  have once := sound.traced.announced
  have bit := Bool.toNat_le life.ready
  refine ⟨by omega, ?_⟩
  cases ready : life.ready with
  | true => rfl
  | false =>
      rw [ready, Bool.toNat_false] at once
      omega

theorem unannounced_of_mem {stage : Stage} (none : life.announcements = 0)
    (queued : stage ∈ life.stages) : stage.announces = false := by
  rw [announcements, List.countP_eq_zero] at none
  simpa using none stage queued

theorem precedes_of_mem {stage : Stage} {rest : List Stage} (sound : Sound phase life)
    (head : life.stages = stage :: rest) : ∀ later ∈ rest, stage.Precedes later := by
  have order := sound.order
  rw [head] at order
  exact (List.pairwise_cons.mp order).1

theorem order_of_head {stage : Stage} {rest : List Stage} (sound : Sound phase life)
    (head : life.stages = stage :: rest) : rest.Pairwise Stage.Precedes := by
  have order := sound.order
  rw [head] at order
  exact (List.pairwise_cons.mp order).2

/-- A new stage at the end of the queue. -/
theorem order_push {stages : List Stage} (order : stages.Pairwise Stage.Precedes) {stage : Stage}
    (follows : ∀ earlier ∈ stages, earlier.Precedes stage) :
    (stages ++ [stage]).Pairwise Stage.Precedes :=
  List.pairwise_append.mpr ⟨order, List.pairwise_singleton _ _, fun earlier member later last => by
    rw [List.mem_singleton.mp last]
    exact follows earlier member⟩

/-- A stage leads to other stages, where no close is reported. -/
theorem advance (sound : Sound phase life) {stage : Stage} {rest front back stages : List Stage}
    (head : life.stages = stage :: rest) (split : stages = front ++ (rest ++ back))
    (traced : Traced phase { life with stages }) (order : stages.Pairwise Stage.Precedes)
    (open' : stage.closes = false) (closes : ∀ later ∈ front ++ back, later.closes = false)
    (announces : 0 < (front ++ back).countP Stage.announces → stage.announces = true) :
    Sound phase { life with stages } := by
  have kept : ∀ later : Stage, later.closes = true → (later ∈ life.stages ↔ later ∈ stages) := by
    intro later ends
    have other : later ≠ stage := by
      rintro rfl
      rw [open'] at ends
      cases ends
    have outer : later ∉ front ++ back := fun member => by
      rw [closes later member] at ends
      cases ends
    simp only [List.mem_append, not_or] at outer
    simp [head, split, other, outer]
  refine ⟨traced, sound.running, sound.shown, sound.verified, order, ?_, ?_, sound.listed, ?_⟩
  · have same : stages.count .closed = life.stages.count .closed := by
      have outer : (front ++ back).count .closed = 0 :=
        List.count_eq_zero.mpr fun member => nomatch closes _ member
      have other : stage ≠ .closed := by rintro rfl; cases open'
      simp only [List.count_append] at outer
      simp only [split, List.count_append, head, List.count_cons_of_ne other]
      omega
    have once := sound.once
    rw [← same] at once
    exact once
  · intro erasing
    obtain ⟨created, shut, gone⟩ := sound.erased erasing
    exact ⟨created, shut, fun member => gone ((kept _ rfl).mpr member)⟩
  · intro pending
    have owed : life.Owes := by
      refine sound.owed (pending.imp_right fun some => ?_)
      simp only [announcements, split, head, List.countP_cons, List.countP_append]
        at some announces ⊢
      by_cases last : stage.announces = true
      · simp [last]
      · have none : ¬ 0 < front.countP Stage.announces + back.countP Stage.announces :=
          fun more => last (announces more)
        omega
    simpa only [Owes, kept .closed rfl, kept .reportClosed rfl, kept .peerClosed rfl] using owed

/-- A stage ends without consequences. -/
theorem drop (sound : Sound phase life) {stage : Stage} {rest : List Stage}
    (head : life.stages = stage :: rest) (open' : stage.closes = false) :
    Sound phase { life with stages := rest } := by
  have split : rest = [] ++ (rest ++ []) := by simp
  have traced : Traced phase { life with stages := rest } := by
    have taken := sound.traced.advance head [] [] (Nat.zero_le _) nofun
    rw [List.append_nil] at taken
    exact taken
  exact sound.advance head split traced (sound.order_of_head head) open' nofun nofun

/-- A new stage of the peer object that is not its close. -/
theorem push (sound : Sound phase life) {stage : Stage}
    (traced : Traced phase { life with stages := life.stages ++ [stage] })
    (follows : ∀ earlier ∈ life.stages, earlier.Precedes stage)
    (unannounced : stage.announces = false) (open' : stage.closes = false) :
    Sound phase { life with stages := life.stages ++ [stage] } := by
  have other : stage ≠ .closed := by rintro rfl; cases open'
  refine ⟨traced, sound.running, sound.shown, sound.verified, order_push sound.order follows,
    ?_, ?_, sound.listed, ?_⟩
  · simpa [List.count_append, List.count_singleton, other] using sound.once
  · simpa [other.symm] using sound.erased
  · intro pending
    have owed := sound.owed (by simpa [announcements, unannounced] using pending)
    simp only [Owes, List.mem_append] at owed ⊢
    tauto

/-- Every calm move keeps the life sound. -/
theorem move {before after : Lifecycle} {marks : List Mark} (sound : Sound phase before)
    (move : Move True before marks after) : Sound (phase.after marks) after := by
  have traced := (sound.traced.move move).1
  cases move with
  | fade fades => exact sound.fade fades
  | create fresh =>
      obtain ⟨rfl, empty⟩ := sound.traced.silent fresh
      have unasked : ¬ (before.closable = true ∨ before.closing = true) :=
        fun asked => absurd (sound.verified asked) (by decide)
      refine ⟨traced, sound.running, by simp [Phase.after, Phase.next], fun asked => absurd asked unasked, sound.order, ?_,
        ?_, fun _ _ => rfl, fun pending => ?_⟩
      · simp [empty]
      · intro erasing
        have created := (sound.erased erasing).1
        rw [fresh] at created
        cases created
      · rcases pending with shown | some
        · exact absurd (sound.traced.exposed shown) (by decide)
        · simp [announcements, empty] at some
  | raise alive unready opened =>
      have opened := opened trivial
      have listed := sound.listed unready opened
      have follows : ∀ earlier ∈ before.stages, earlier.Precedes .ready := by
        intro earlier member
        refine Stage.precedes_ready ?_
        cases ends : earlier.closes with
        | false => rfl
        | true =>
            have shut := sound.traced.shut earlier member ends
            rw [opened] at shut
            cases shut
      refine ⟨traced, sound.running, sound.shown, sound.verified, order_push sound.order follows,
        ?_, ?_, by simp, fun _ => .inl ⟨listed, .inl opened⟩⟩
      · simpa [List.count_append] using sound.once
      · simpa using sound.erased
  | message alive =>
      exact sound.push traced (fun earlier _ => earlier.precedes_plain rfl (by decide)) rfl rfl
  | error alive =>
      exact sound.push traced (fun earlier _ => earlier.precedes_plain rfl (by decide)) rfl rfl
  | shut alive opened =>
      refine ⟨traced, sound.running, sound.shown, sound.verified,
        order_push sound.order (fun earlier _ => earlier.precedes_plain rfl (by decide)), ?_, ?_,
        by simp, ?_⟩
      · have once := sound.once
        rw [opened, Bool.toNat_true] at once
        simp only [List.count_append, List.count_singleton_self, Bool.toNat_false]
        omega
      · intro erasing
        have shut := (sound.erased erasing).2.1
        rw [opened] at shut
        cases shut
      · intro pending
        have owed := sound.owed (by simpa [announcements, Stage.announces] using pending)
        simp only [Owes, List.mem_append, List.mem_singleton] at owed ⊢
        tauto
  | finish closing shut =>
      have none := (sound.announced (sound.verified (.inr closing))).1
      have follows : ∀ earlier ∈ before.stages, earlier.Precedes .peerClosed := by
        intro earlier member
        refine Stage.precedes_peerClosed ?_
        rintro rfl
        exact absurd (unannounced_of_mem none member) (by decide)
      refine ⟨traced, sound.running, sound.shown, sound.verified,
        order_push sound.order follows, ?_, ?_, sound.listed, fun _ => ?_⟩
      · simpa [List.count_append] using sound.once
      · simpa using sound.erased
      · exact .inr (.inr (.inl (by simp)))
  | settle reported =>
      exact { sound with
        traced := traced
        verified := fun asked => sound.verified (.inl (by simpa using asked))
        owed := fun _ => .inr (.inr (.inl reported)) }
  | release closable listed =>
      have verified := sound.verified (.inl closable)
      have ready := (sound.announced verified).2
      refine ⟨traced, sound.running, sound.shown, fun _ => verified, sound.order, sound.once,
        sound.erased, fun unready => ?_, fun _ => .inr (.inr (.inr rfl))⟩
      have unready : before.ready = false := unready
      rw [ready] at unready
      cases unready
  | erase erasing =>
      obtain ⟨_, shut, gone⟩ := sound.erased erasing
      refine ⟨traced, sound.running, sound.shown, sound.verified, sound.order, sound.once,
        sound.erased, fun _ opened => ?_, fun pending => ?_⟩
      · have opened : before.isOpen = true := opened
        rw [shut] at opened
        cases opened
      · have owed := sound.owed pending
        simp only [Owes, shut] at owed ⊢
        tauto
  | dismiss stopping =>
      have running := sound.running
      rw [stopping] at running
      cases running
  | destroy unlisted finished =>
      refine ⟨traced, sound.running, sound.shown, sound.verified, sound.order.filter _, ?_, ?_,
        by simp, fun pending => ?_⟩
      · have gone : (before.stages.filter fun stage => !stage.isSignal).count .closed = 0 :=
          List.count_eq_zero.mpr (by simp [Stage.isSignal])
        simp [gone]
      · exact fun erasing => ⟨(sound.erased erasing).1, rfl, by simp [Stage.isSignal]⟩
      · have fewer : (before.stages.filter fun stage => !stage.isSignal).countP Stage.announces ≤
            before.announcements := List.filter_sublist.countP_le
        have owed := sound.owed (pending.imp_right fun some => Nat.lt_of_lt_of_le some fewer)
        simp only [Owes, unlisted, finished, Bool.false_eq_true, false_and, false_or, or_false]
          at owed ⊢
        simpa [Stage.isSignal] using owed
  | takeReady head =>
      have order := order_push (sound.order_of_head head) fun earlier member =>
        Stage.precedes_verify (sound.precedes_of_mem head earlier member).2
      exact sound.advance head (List.nil_append _).symm traced order rfl (by simp [Stage.closes])
        fun _ => rfl
  | takeMessage head delivers =>
      have order := sound.order_of_head head
      refine sound.advance head (List.nil_append _).symm traced ?_ rfl ?_ ?_
      · cases delivers with
        | false => simpa using order
        | true => exact order_push order fun earlier _ => earlier.precedes_plain rfl (by decide)
      · cases delivers <;> simp [Stage.closes]
      · cases delivers <;> simp [Stage.announces]
  | @takeError rest head =>
      have order : (Stage.reportError :: rest).Pairwise Stage.Precedes :=
        List.pairwise_cons.mpr ⟨fun _ _ => trivial, sound.order_of_head head⟩
      have split : Stage.reportError :: rest = [.reportError] ++ (rest ++ []) := by simp
      exact sound.advance head split traced order rfl (by simp [Stage.closes])
        (by simp [Stage.announces])
  | @takeClosed rest head =>
      have once := sound.once
      have bit := Bool.toNat_le before.isOpen
      rw [head, List.count_cons_self] at once
      have shut : before.isOpen = false := by simpa using (by omega : before.isOpen.toNat = 0)
      have gone : rest.count .closed = 0 := by omega
      have order : (Stage.reportClosed :: rest).Pairwise Stage.Precedes :=
        List.pairwise_cons.mpr ⟨fun later member =>
          (sound.precedes_of_mem head later member : Stage.closed.Precedes later),
          sound.order_of_head head⟩
      refine ⟨traced, sound.running, sound.shown, sound.verified, order, ?_, fun _ => ?_,
        sound.listed, fun _ => .inr (.inl List.mem_cons_self)⟩
      · simp [gone, shut]
      · exact ⟨sound.traced.created_of_head head, shut, by simpa using List.count_eq_zero.mp gone⟩
  | reportError head =>
      have order := order_push (sound.order_of_head head) fun earlier _ =>
        earlier.precedes_plain rfl (by decide : Stage.deliver ≠ _ ∧ Stage.deliver ≠ _)
      exact sound.advance head (List.nil_append _).symm traced order rfl (by simp [Stage.closes])
        (by simp [Stage.announces])
  | @reportClosed rest head =>
      have kept : ∀ stage : Stage, stage ≠ .reportClosed → stage ≠ .peerClosed →
          (stage ∈ before.stages ↔ stage ∈ rest ++ [.peerClosed]) := by
        intro stage _ _
        simp_all
      have order := order_push (sound.order_of_head head) fun earlier member =>
        Stage.precedes_peerClosed (sound.precedes_of_mem head earlier member)
      refine ⟨traced, sound.running, sound.shown, sound.verified, order, ?_, fun erasing => ?_,
        sound.listed, fun _ => .inr (.inr (.inl (by simp)))⟩
      · have once := sound.once
        rw [head, List.count_cons_of_ne (by decide)] at once
        simpa [List.count_append] using once
      · obtain ⟨created, shut, gone⟩ := sound.erased erasing
        exact ⟨created, shut, fun member => gone ((kept _ (by decide) (by decide)).mpr member)⟩
  | discard head => exact sound.drop head rfl
  | @expose rest head =>
      have taken := sound.drop head rfl
      have some : 0 < before.announcements := by simp [announcements, head, Stage.announces]
      have owed : Owes { before with stages := rest } := by
        simpa [Owes, head] using sound.owed (.inr some)
      exact { taken with
        traced := traced
        shown := fun _ => rfl
        verified := fun _ => rfl
        owed := fun _ => owed }
  | @reject rest head =>
      have taken := sound.drop head rfl
      exact { taken with
        traced := traced
        shown := by simp [Phase.after, Phase.next]
        verified := fun _ => rfl }
  | deliver head =>
      by_cases shown : before.exposed = true
      · rw [if_pos shown]
        obtain rfl := sound.traced.exposed shown
        exact sound.drop head rfl
      · rw [if_neg shown]
        exact sound.drop head rfl
  | @peerClosed rest head =>
      have none : rest.countP Stage.announces = 0 :=
        List.countP_eq_zero.mpr fun later member => by
          have order : later.announces = false := sound.precedes_of_mem head later member
          simp [order]
      have once := sound.once
      rw [head, List.count_cons_of_ne (by decide)] at once
      refine ⟨traced, sound.running, ?_, ?_, sound.order_of_head head, once, ?_, sound.listed, ?_⟩
      · by_cases shown : before.exposed = true
        · rw [if_pos shown]
          simp [Phase.after, Phase.next]
        · rw [if_neg shown]
          exact fun connected => absurd (sound.shown connected) shown
      · intro asked
        have verified := sound.verified asked
        by_cases shown : before.exposed = true
        · rw [if_pos shown]
          rfl
        · rw [if_neg shown]
          exact verified
      · simpa [head] using sound.erased
      · simp [announcements, none]
  | hide stopping =>
      have running := sound.running
      rw [stopping] at running
      cases running
  | ask asked =>
      have verified : phase.verified = 1 := by rw [sound.traced.exposed (asked trivial)]; rfl
      exact { sound with traced := traced, verified := fun _ => verified }
  | stop wild => exact absurd trivial wild

end Sound

/-- The marks of a calm life are those of a phase, and the life is sound. -/
def InSoundPhase (marks : List Mark) (life : Lifecycle) : Prop :=
  ∃ phase count, marks = Phase.marks count phase ∧ Sound phase life

theorem Moves.inSoundPhase {marks : List Mark} {life : Lifecycle}
    (moves : Moves True unborn marks life) : InSoundPhase marks life := by
  refine moves.invariant ⟨.unborn, 0, rfl, Sound.initial⟩ ?_
  rintro marks before more after ⟨phase, count, rfl, sound⟩ move
  obtain ⟨count', same⟩ := (sound.traced.move move).2 count
  exact ⟨_, count', same, sound.move move⟩

end UnixDomainStream.Server.Lifecycle

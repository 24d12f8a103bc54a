import UnixDomainStream.Peer.Messages

/-!
# From the reader to the outside

What one connection owes the outside, apart from the queues it waits in: the messages
decoded while the socket was open are owed in their order, behind `ready` and in front
of `closed`.  Whatever is reported after the socket was closed is owed behind `closed`.
-/

namespace UnixDomainStream

/-- What the outside is told about one connection. -/
inductive Told where
  | connected
  | message (message : Message)
  | error
  | closed
  deriving DecidableEq, Repr

def Told.message? : Told → Option Message
  | .message sent => some sent
  | _ => none

/-- Between the announcement and the report of the close. -/
def Told.within : Told → Bool
  | .message _ | .error => true
  | _ => false

/-- The messages that the outside was told. -/
def delivered (told : List Told) : List Message := told.filterMap Told.message?

/-- One connection: the flags of its peer, whether it is exposed, and what it owes. -/
structure Passage where
  isOpen : Bool
  ready : Bool
  exposed : Bool
  owed : List Item

/-- What is owed behind the messages: `closed` and late messages, if the socket is closed. -/
def Ending (isOpen : Bool) (tail : List Item) : Prop :=
  if isOpen then tail = []
  else ∃ late : List Message, tail = .closed :: late.map .message

/-- How the messages decoded so far and what the outside was told account for what is
owed.  A connection that is closed before it has decoded anything owes nothing. -/
inductive Delivery : Passage → List Message → List Told → Prop where
  | silent {passage : Passage} (isOpen : passage.isOpen = true) (unready : passage.ready = false)
      (hidden : passage.exposed = false) (owed : passage.owed = []) : Delivery passage [] []
  | announced {passage : Passage} {waiting : List Message} {tail : List Item}
      (ready : passage.ready = true) (hidden : passage.exposed = false)
      (owed : passage.owed = .ready :: (waiting.map .message ++ tail))
      (ending : Ending passage.isOpen tail) : Delivery passage waiting []
  | exposed {passage : Passage} {waiting : List Message} {tail : List Item} {middle : List Told}
      (ready : passage.ready = true) (shown : passage.exposed = true)
      (owed : passage.owed = waiting.map .message ++ tail)
      (ending : Ending passage.isOpen tail) (within : ∀ told ∈ middle, told.within = true) :
      Delivery passage (delivered middle ++ waiting) (.connected :: middle)
  | ended {passage : Passage} {late : List Message} {middle : List Told}
      (closed : passage.isOpen = false) (ready : passage.ready = true)
      (hidden : passage.exposed = false) (owed : passage.owed = late.map .message)
      (within : ∀ told ∈ middle, told.within = true) :
      Delivery passage (delivered middle) (.connected :: (middle ++ [.closed]))
  | missed {passage : Passage} {told : List Told} (closed : passage.isOpen = false) :
      Delivery passage [] told

namespace Ending

variable {isOpen isOpen' : Bool} {tail : List Item}

/-- What a handler adds to the end of what is owed: a message, in front of `closed`. -/
theorem report (ending : Ending isOpen tail) (opened : isOpen' = true → isOpen = true)
    (message : Option Message) :
    ∃ tail', tail ++ (message.toList.map Item.message ++
        if isOpen && !isOpen' then [.closed] else []) =
      (if isOpen then message.toList else []).map .message ++ tail' ∧ Ending isOpen' tail' := by
  cases isOpen with
  | true =>
      obtain rfl : tail = [] := ending
      cases isOpen' with
      | true => exact ⟨[], by simp, rfl⟩
      | false => exact ⟨[.closed], by simp, [], rfl⟩
  | false =>
      have shut : isOpen' = false := by
        by_contra still
        cases opened (by simpa using still)
      obtain ⟨late, rfl⟩ := ending
      subst shut
      exact ⟨.closed :: (late ++ message.toList).map .message, by simp, _, rfl⟩

/-- A message in front of the end stands in front of `closed`. -/
theorem head_message (ending : Ending isOpen tail) {waiting : List Message} {message : Message}
    {rest : List Item} (owed : waiting.map .message ++ tail = .message message :: rest) :
    ∃ waiting', waiting = message :: waiting' ∧ rest = waiting'.map .message ++ tail := by
  cases waiting with
  | nil =>
      cases isOpen with
      | true =>
          obtain rfl : tail = [] := ending
          cases owed
      | false =>
          obtain ⟨late, rfl⟩ := ending
          cases owed
  | cons first waiting' =>
      cases owed
      exact ⟨waiting', rfl, rfl⟩

/-- Once `closed` comes first, no message is left in front of it. -/
theorem head_closed (ending : Ending isOpen tail) {waiting : List Message} {rest : List Item}
    (owed : waiting.map .message ++ tail = .closed :: rest) :
    waiting = [] ∧ isOpen = false ∧ ∃ late : List Message, rest = late.map .message := by
  cases waiting with
  | cons first waiting' => cases owed
  | nil =>
      cases isOpen with
      | true =>
          obtain rfl : tail = [] := ending
          cases owed
      | false =>
          obtain ⟨late, rfl⟩ := ending
          cases owed
          exact ⟨rfl, rfl, late, rfl⟩

theorem head_ready (ending : Ending isOpen tail) {waiting : List Message} {rest : List Item}
    (owed : waiting.map .message ++ tail = .ready :: rest) : False := by
  cases waiting with
  | cons first waiting' => cases owed
  | nil =>
      cases isOpen with
      | true =>
          obtain rfl : tail = [] := ending
          cases owed
      | false =>
          obtain ⟨late, rfl⟩ := ending
          cases owed

/-- Only late messages stand behind the last `closed`. -/
theorem drop (ending : Ending false tail) {before front back : List Item}
    (owed : before ++ tail = front ++ back) (reported : .closed ∉ back) :
    ∃ tail', front = before ++ tail' ∧ Ending false tail' := by
  obtain ⟨late, rfl⟩ := ending
  rcases List.append_eq_append_iff.mp owed with ⟨between, rfl, split⟩ | ⟨between, rfl, rfl⟩
  · cases between with
    | nil =>
        rw [List.nil_append] at split
        exact absurd (split ▸ List.mem_cons_self) reported
    | cons item between =>
        obtain ⟨rfl, behind⟩ := List.cons.inj split
        obtain ⟨early, rest, rfl, rfl, rfl⟩ := List.map_eq_append_iff.mp behind
        exact ⟨_, rfl, early, rfl⟩
  · exact absurd (List.mem_append_right _ List.mem_cons_self) reported

end Ending

namespace Delivery

variable {passage after : Passage} {decoded : List Message} {told : List Told} {rest : List Item}

/-- Nothing that matters has changed. -/
theorem congr (delivery : Delivery passage decoded told) (same : after = passage) :
    Delivery after decoded told := by
  rw [same]
  exact delivery

/-- A handler of the peer reports `ready`, a message and `closed`. -/
theorem report {message : Option Message} (delivery : Delivery passage decoded told)
    (opened : after.isOpen = true → passage.isOpen = true)
    (ready : passage.ready = true → after.ready = true)
    (raised : message.isSome = true → after.ready = true)
    (exposed : after.exposed = passage.exposed)
    (owed : after.owed = passage.owed ++ ((if !passage.ready && after.ready then [.ready] else []) ++
      (message.toList.map .message ++
        if passage.isOpen && !after.isOpen then [.closed] else []))) :
    Delivery after (decoded ++ if passage.isOpen then message.toList else []) told := by
  have announce : passage.ready = true →
      after.owed = passage.owed ++ (message.toList.map .message ++
        if passage.isOpen && !after.isOpen then [.closed] else []) := by
    intro ready
    simpa [ready] using owed
  cases delivery with
  | silent isOpen unready hidden none =>
      have fresh : Ending passage.isOpen [] := by rw [isOpen]; rfl
      obtain ⟨tail, split, ending⟩ := fresh.report opened message
      rw [List.nil_append] at split
      rw [none, split, unready, isOpen] at owed
      rw [isOpen, List.nil_append, if_pos rfl]
      cases raises : after.ready with
      | true => exact .announced raises (exposed.trans hidden) (by simpa [raises] using owed) ending
      | false =>
          obtain rfl : message = .none := by
            cases message with
            | none => rfl
            | some message =>
                have raised := raised rfl
                rw [raises] at raised
                cases raised
          cases still : after.isOpen with
          | false => exact .missed still
          | true =>
              rw [still] at ending
              obtain rfl : tail = [] := ending
              exact .silent still raises (exposed.trans hidden) (by simpa [raises] using owed)
  | announced ready' hidden owed' ending =>
      obtain ⟨tail, split, ending⟩ := ending.report opened message
      have owed : after.owed = .ready :: ((decoded ++
          if passage.isOpen then message.toList else []).map .message ++ tail) := by
        rw [announce ready', owed', List.cons_append, List.append_assoc, split, List.map_append,
          List.append_assoc]
      exact .announced (ready ready') (exposed.trans hidden) owed ending
  | @exposed waiting _ middle ready' shown owed' ending within =>
      obtain ⟨tail, split, ending⟩ := ending.report opened message
      have owed : after.owed = (waiting ++
          if passage.isOpen then message.toList else []).map .message ++ tail := by
        rw [announce ready', owed', List.append_assoc, split, List.map_append, List.append_assoc]
      rw [List.append_assoc]
      exact .exposed (ready ready') (exposed.trans shown) owed ending within
  | @ended late middle closed ready' hidden owed' within =>
      have shut : after.isOpen = false := by
        by_contra still
        rw [opened (by simpa using still)] at closed
        cases closed
      rw [closed, if_neg Bool.false_ne_true, List.append_nil]
      have owed : after.owed = (late ++ message.toList).map .message := by
        rw [announce ready', owed', closed]
        simp
      exact .ended shut (ready ready') (exposed.trans hidden) owed within
  | missed closed =>
      have shut : after.isOpen = false := by
        by_contra still
        rw [opened (by simpa using still)] at closed
        cases closed
      rw [closed, if_neg Bool.false_ne_true, List.append_nil]
      exact .missed shut

/-- The connection is announced. -/
theorem expose (delivery : Delivery passage decoded told) (head : passage.owed = .ready :: rest) :
    Delivery { passage with exposed := true, owed := rest } decoded (told ++ [.connected]) := by
  cases delivery with
  | silent isOpen unready hidden none =>
      rw [none] at head
      cases head
  | announced ready hidden owed ending =>
      rw [owed] at head
      cases head
      exact @exposed { passage with exposed := true, owed := _ } decoded _ [] ready rfl rfl ending
        nofun
  | exposed ready shown owed ending within =>
      rw [owed] at head
      exact (ending.head_ready head).elim
  | @ended late middle closed ready hidden owed within =>
      rw [owed] at head
      cases late <;> cases head
  | missed closed => exact .missed closed

/-- A message is passed on while the connection is exposed. -/
theorem deliver {message : Message} (delivery : Delivery passage decoded told)
    (head : passage.owed = .message message :: rest) :
    Delivery { passage with owed := rest } decoded
      (told ++ if passage.exposed then [.message message] else []) := by
  cases delivery with
  | silent isOpen unready hidden none =>
      rw [none] at head
      cases head
  | announced ready hidden owed ending =>
      rw [owed] at head
      cases head
  | @exposed waiting tail middle ready shown owed ending within =>
      rw [owed] at head
      obtain ⟨waiting', rfl, rfl⟩ := ending.head_message head
      have passed : delivered middle ++ message :: waiting' =
          delivered (middle ++ [.message message]) ++ waiting' := by
        simp [delivered, Told.message?]
      rw [passed, if_pos shown]
      refine @exposed { passage with owed := waiting'.map .message ++ tail } waiting' tail
        (middle ++ [.message message]) ready shown rfl ending ?_
      intro told member
      rcases List.mem_append.mp member with early | last
      · exact within told early
      · rw [List.mem_singleton.mp last]
        rfl
  | @ended late middle closed ready hidden owed within =>
      rw [owed] at head
      cases late with
      | nil => cases head
      | cons first late =>
          cases head
          rw [hidden, if_neg Bool.false_ne_true, List.append_nil]
          exact .ended closed ready rfl rfl within
  | missed closed => exact .missed closed

/-- An error is passed on while the connection is exposed. -/
theorem fail (delivery : Delivery passage decoded told) :
    Delivery passage decoded (told ++ if passage.exposed then [.error] else []) := by
  cases delivery with
  | silent isOpen unready hidden none =>
      rw [hidden]
      exact .silent isOpen unready hidden none
  | announced ready hidden owed ending =>
      rw [hidden]
      exact .announced ready hidden owed ending
  | @exposed waiting tail middle ready shown owed ending within =>
      have passed : delivered middle = delivered (middle ++ [.error]) := by
        simp [delivered, Told.message?]
      rw [passed, if_pos shown]
      refine @exposed passage waiting tail (middle ++ [.error]) ready shown owed ending ?_
      intro told member
      rcases List.mem_append.mp member with early | last
      · exact within told early
      · rw [List.mem_singleton.mp last]
        rfl
  | ended closed ready hidden owed within =>
      rw [hidden, if_neg Bool.false_ne_true, List.append_nil]
      exact .ended closed ready hidden owed within
  | missed closed => exact .missed closed

/-- The close is reported, if the connection is exposed. -/
theorem close (delivery : Delivery passage decoded told) (head : passage.owed = .closed :: rest) :
    Delivery { passage with exposed := false, owed := rest } decoded
      (told ++ if passage.exposed then [.closed] else []) := by
  cases delivery with
  | silent isOpen unready hidden none =>
      rw [none] at head
      cases head
  | announced ready hidden owed ending =>
      rw [owed] at head
      cases head
  | @exposed waiting tail middle ready shown owed ending within =>
      rw [owed] at head
      obtain ⟨rfl, closed, late, rfl⟩ := ending.head_closed head
      rw [if_pos shown, List.append_nil]
      exact .ended closed ready rfl rfl within
  | @ended late middle closed ready hidden owed within =>
      rw [owed] at head
      cases late <;> cases head
  | missed closed => exact .missed closed

/-- A closed peer ends with what it reported behind `closed`. -/
theorem destroy {front back : List Item} (delivery : Delivery passage decoded told)
    (closed : passage.isOpen = false) (owed : passage.owed = front ++ back)
    (reported : .closed ∉ back) :
    Delivery { passage with isOpen := false, ready := true, owed := front } decoded told := by
  cases delivery with
  | silent isOpen unready hidden none =>
      rw [isOpen] at closed
      cases closed
  | announced ready hidden owed' ending =>
      rw [closed] at ending
      rw [owed', ← List.cons_append] at owed
      obtain ⟨tail', rfl, ending⟩ := ending.drop owed reported
      exact .announced rfl hidden rfl ending
  | exposed ready shown owed' ending within =>
      rw [closed] at ending
      rw [owed'] at owed
      obtain ⟨tail', rfl, ending⟩ := ending.drop owed reported
      exact .exposed rfl shown rfl ending within
  | ended closed ready hidden owed' within =>
      rw [owed'] at owed
      obtain ⟨early, rest, rfl, rfl, rfl⟩ := List.map_eq_append_iff.mp owed
      exact .ended rfl rfl hidden rfl within
  | missed closed => exact .missed rfl

/-! ## What the outside learns -/

end Delivery

/-- Between the first and the last notification of a connection lie its messages and
errors; every message decoded is told or still owed, and none is owed once the close is
told.  A connection that has decoded nothing says nothing here. -/
def PassedOn (decoded : List Message) (told : List Told) (owed : List Item) : Prop :=
  decoded = [] ∨ ∃ pending, decoded = delivered told ++ pending ∧
    (∀ message ∈ pending, .message message ∈ owed) ∧
    (told = [] ∨ ∃ middle ending, told = .connected :: (middle ++ ending) ∧
      (∀ told ∈ middle, told.within = true) ∧
      (ending = [] ∨ ending = [.closed] ∧ pending = []))

/-- With nothing owed, every message has been told. -/
theorem PassedOn.all_told {decoded : List Message} {told : List Told}
    (passed : PassedOn decoded told []) : decoded = [] ∨ decoded = delivered told := by
  rcases passed with none | ⟨pending, split, owed, _⟩
  · exact .inl none
  · have settled : pending = [] := List.eq_nil_iff_forall_not_mem.mpr fun message member =>
      List.not_mem_nil (owed message member)
    exact .inr (by rw [split, settled, List.append_nil])

theorem Delivery.passedOn {passage : Passage} {decoded : List Message} {told : List Told}
    (delivery : Delivery passage decoded told) : PassedOn decoded told passage.owed := by
  cases delivery with
  | silent => exact .inl rfl
  | announced ready hidden owed ending =>
      refine .inr ⟨decoded, rfl, ?_, .inl rfl⟩
      rw [owed]
      intro message member
      simp [member]
  | @exposed waiting tail middle ready shown owed ending within =>
      refine .inr ⟨waiting, rfl, ?_, .inr ⟨middle, [], by simp, within, .inl rfl⟩⟩
      rw [owed]
      intro message member
      simp [member]
  | @ended late middle closed ready hidden owed within =>
      refine .inr ⟨[], ?_, nofun, .inr ⟨middle, [.closed], rfl, within, .inr ⟨rfl, rfl⟩⟩⟩
      simp [delivered, List.filterMap_cons, Told.message?]
  | missed => exact .inl rfl

end UnixDomainStream

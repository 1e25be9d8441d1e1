import MbedtlsKcp.CommonIkcpWindow

/-!
# Two control blocks over an unreliable network

Two users talk through their control blocks.  Everything a control block has
passed to its output may reach the other one at any later time, any number of
times, or never.  As long as no serial number comes round a second time, what
one user reads is the beginning of what the other has handed over, and a
segment that has left the send buffer has been received.
-/

namespace MbedtlsKcp

namespace CommonIkcp

open SelectiveRepeat Ikcp

/-- A control block, what it has passed to its output, what its user has handed
over and read, and how many segments it has numbered. -/
structure Party where
  kcp : IkcpCb
  sent : List (List UInt8) := []
  accepted : List UInt8 := []
  handed : List UInt8 := []
  numbered : Nat := 0

/-- A party whose call has led to `kcp` and passed `sent` to the output. -/
def Party.flushed (party : Party) (sent : List (List UInt8)) (kcp : IkcpCb) :
    Party :=
  { party with
    kcp
    sent := party.sent ++ sent
    numbered := party.numbered +
      (kcp.snd.sndBuf.length - party.kcp.snd.sndBuf.length) }

/-- A call by the user of the party. -/
def Party.call (party : Party) : Call → Option Party
  | .send buffer =>
      let result := ikcpSend party.kcp.snd buffer
      some { party with
        kcp := { party.kcp with snd := result.2 }
        accepted := party.accepted ++ buffer.take result.1.toNat }
  | .recv len =>
      let result := ikcpRecv party.kcp len
      some { party with
        kcp := result.2.2
        handed := if len < 0 then party.handed
          else party.handed ++ result.2.1 }
  | .update current =>
      (ikcpUpdate party.kcp current).map fun (sent, kcp) =>
        party.flushed sent kcp
  | .flush =>
      (ikcpFlush party.kcp).map fun (sent, kcp) => party.flushed sent kcp
  | label =>
      (CommonIkcp.call party.kcp label).map fun kcp => { party with kcp }

/-- The two parties. -/
structure Link where
  here : Party
  there : Party

/-- The party that makes a call. -/
inductive Side
  | here
  | there
  deriving DecidableEq, Repr

def Link.step (link : Link) : Side × Call → Option Link
  | (.here, call) => (link.here.call call).map fun here => { link with here }
  | (.there, call) =>
      (link.there.call call).map fun there => { link with there }

/-- A datagram may arrive when the other party has sent it. -/
def Arrives (peer : Party) : Call → Prop
  | .input data => data ∈ peer.sent
  | _ => True

/-- The calls of valid arguments, with datagrams that have been sent. -/
def Link.Permits (link : Link) : Side × Call → Prop
  | (.here, call) => call.Valid ∧ Arrives link.there call
  | (.there, call) => call.Valid ∧ Arrives link.here call

/-- Two new control blocks of one conversation. -/
def Link.Initial (link : Link) : Prop :=
  Fresh link.here.kcp ∧ Fresh link.there.kcp ∧
    link.here.kcp.conv = link.there.kcp.conv ∧
    link.here = { kcp := link.here.kcp } ∧
    link.there = { kcp := link.there.kcp }

/-- The links that the calls of both users and the network lead to. -/
def Link.Reachable : Link → Prop :=
  TransitionRuns.Reachable Link.Initial Link.step Link.Permits

/-! ## One party -/

/-- A party in the state `x` as a sender and `y` as a receiver. -/
structure Party.Stands (conv : IUINT32) (x y : State Piece) (party : Party) :
    Prop where
  endpoint : Endpoint conv x y party.accepted party.handed party.kcp
  sent : ∀ data ∈ party.sent, Encodes (Genuine x y) data
  numbered : x.log.length = party.numbered

variable {conv : IUINT32} {x y x' y' : State Piece}
variable {party after peer : Party}

/-- The other party does not see the steps of this one. -/
theorem Party.Stands.beside (stands : peer.Stands conv y x)
    (sender : SenderOnly x x') (receiver : ReceiverOnly y y') :
    peer.Stands conv y' x' where
  endpoint :=
    { session := stands.endpoint.session
      sending :=
        { stands.endpoint.sending with
          next := receiver.log ▸ stands.endpoint.sending.next
          buffered := receiver.log ▸ stands.endpoint.sending.buffered
          waiting := receiver.waiting ▸ stands.endpoint.sending.waiting
          accounted := receiver.log ▸ stands.endpoint.sending.accounted }
      collecting :=
        { stands.endpoint.collecting with
          queued := sender.received ▸ stands.endpoint.collecting.queued
          next := sender.received ▸ stands.endpoint.collecting.next
          early := sender.early ▸ stands.endpoint.collecting.early }
      acked := stands.endpoint.acked.grow sender.acks.superset }
  sent := fun data member => (stands.sent data member).mono
    fun _ genuine => genuine.grow receiver.steps.grown sender.steps.grown
  numbered := receiver.log ▸ stands.numbered

/-- A call that passes nothing to the output. -/
theorem Party.Stands.quiet (stands : party.Stands conv x y)
    (sender : SenderOnly x x') (receiver : ReceiverOnly y y')
    (log : x'.log = x.log)
    (endpoint : Endpoint conv x' y' after.accepted after.handed after.kcp)
    (sent : after.sent = party.sent)
    (numbered : after.numbered = party.numbered) :
    after.Stands conv x' y' where
  endpoint := endpoint
  sent := by
    intro data member
    rw [sent] at member
    exact (stands.sent data member).mono
      fun _ genuine => genuine.grow sender.steps.grown receiver.steps.grown
  numbered := by rw [log, stands.numbered, numbered]

/-- A call that flushes. -/
theorem Party.Stands.flushed (stands : party.Stands conv x y)
    {sent : List (List UInt8)} {kcp : IkcpCb}
    (sender : SenderOnly x x') (receiver : ReceiverOnly y y')
    (log : x'.log.length = x.log.length +
      (kcp.snd.sndBuf.length - party.kcp.snd.sndBuf.length))
    (genuine : ∀ data ∈ sent, Encodes (Genuine x' y') data)
    (endpoint : Endpoint conv x' y' party.accepted party.handed kcp) :
    (party.flushed sent kcp).Stands conv x' y' where
  endpoint := endpoint
  sent := by
    intro data member
    rcases List.mem_append.mp member with earlier | now
    · exact (stands.sent data earlier).mono
        fun _ genuine => genuine.grow sender.steps.grown receiver.steps.grown
    · exact genuine data now
  numbered := by rw [log, stands.numbered, Party.flushed]

/-- The calls that set parameters leave the two directions alone. -/
theorem Endpoint.setmtu {accepted handed : List UInt8} {kcp : IkcpCb}
    (endpoint : Endpoint conv x y accepted handed kcp) {mtu : Int}
    (valid : mtu ≤ intMax) :
    Endpoint conv x y accepted handed (ikcpSetmtu kcp mtu) := by
  rw [ikcpSetmtu]
  split
  · exact endpoint
  case isFalse long =>
    have large : (50 : Int) ≤ mtu := by omega
    exact { endpoint with
      sending := { endpoint.sending with
        mss := by
          simp only [ikcpOverhead]
          omega } }

theorem Endpoint.wndsize {accepted handed : List UInt8} {kcp : IkcpCb}
    (endpoint : Endpoint conv x y accepted handed kcp)
    (sndwnd rcvwnd : Int) :
    Endpoint conv x y accepted handed (ikcpWndsize kcp sndwnd rcvwnd) := by
  have sized : ∀ (snd : SendSide) (rcvWnd : Nat), KeepsData kcp.snd snd →
      Endpoint conv x y accepted handed
        { kcp with snd, rcv := { kcp.rcv with rcvWnd } } :=
    fun snd rcvWnd keeps => { endpoint with
      sending := endpoint.sending.keep keeps
      collecting := { endpoint.collecting with } }
  have same : KeepsData kcp.snd kcp.snd := ⟨rfl, rfl, rfl, rfl⟩
  rw [ikcpWndsize, Ikcp.ikcpWndsize]
  by_cases wide : 0 < sndwnd
  · by_cases room : 0 < rcvwnd
    · simp only [wide, room, if_true, lt_max_iff, true_or]
      exact sized _ _ ⟨rfl, rfl, rfl, rfl⟩
    · simp only [wide, room, if_true, if_false]
      exact sized _ kcp.rcv.rcvWnd ⟨rfl, rfl, rfl, rfl⟩
  · by_cases room : 0 < rcvwnd
    · simp only [wide, room, if_true, if_false, lt_max_iff, true_or]
      exact sized _ _ same
    · simp only [wide, room, if_false]
      exact endpoint

/-- What a call of the party is in the two directions. -/
theorem Party.Stands.call (stands : party.Stands conv x y)
    (peerSent : ∀ data ∈ peer.sent, Encodes (Genuine y x) data)
    (soundX : Sound x) (soundY : Sound y)
    (smallY : y.log.length < 2 ^ 31) {label : Call} (valid : label.Valid)
    (arrives : Arrives peer label) (returns : party.call label = some after)
    (small : after.numbered < 2 ^ 31) :
    ∃ x' y', SenderOnly x x' ∧ ReceiverOnly y y' ∧
      after.Stands conv x' y' := by
  have endpoint := stands.endpoint
  have still : ∀ after : Party,
      Endpoint conv x y after.accepted after.handed after.kcp →
      after.sent = party.sent → after.numbered = party.numbered →
      ∃ x' y', SenderOnly x x' ∧ ReceiverOnly y y' ∧
        after.Stands conv x' y' :=
    fun after kept sent numbered => ⟨x, y, .refl x, .refl y,
      stands.quiet (.refl x) (.refl y) rfl kept sent numbered⟩
  have same : KeepsData party.kcp.snd party.kcp.snd := ⟨rfl, rfl, rfl, rfl⟩
  cases label with
  | send buffer =>
      obtain rfl := Option.some.inj returns
      exact still _ { endpoint with sending := endpoint.sending.send buffer }
        rfl rfl
  | input data =>
      obtain rfl := Option.some.inj returns
      have smallX : x.log.length < 2 ^ 31 := stands.numbered ▸ small
      obtain ⟨x', y', sender, receiver, log, kept⟩ :=
        endpoint.input soundX soundY smallX smallY (peerSent data arrives)
      exact ⟨x', y', sender, receiver,
        stands.quiet sender receiver log kept rfl rfl⟩
  | recv len =>
      obtain rfl := Option.some.inj returns
      obtain ⟨y', receiver, kept, acked⟩ :=
        endpoint.collecting.recv endpoint.acked soundY smallY len
      refine ⟨x, y', .refl x, receiver,
        stands.quiet (.refl x) receiver rfl ?_ rfl rfl⟩
      obtain ⟨session, snd⟩ := ikcpRecv_frame party.kcp.toIkcpCb len
      exact
        { session := session.trans endpoint.session
          sending := snd ▸ endpoint.sending
          collecting := kept
          acked := acked }
  | update current =>
      obtain ⟨⟨sent, kcp⟩, updates, rfl⟩ := Option.map_eq_some_iff.mp returns
      have grows := length_le_ikcpUpdate updates
      have bound : x.log.length +
          (kcp.snd.sndBuf.length - party.kcp.snd.sndBuf.length) < 2 ^ 31 :=
        stands.numbered ▸ small
      obtain ⟨x', y', sender, receiver, log, genuine, kept⟩ :=
        endpoint.update updates (by omega) bound
      exact ⟨x', y', sender, receiver,
        stands.flushed sender receiver log genuine kept⟩
  | flush =>
      obtain ⟨⟨sent, kcp⟩, flushes, rfl⟩ := Option.map_eq_some_iff.mp returns
      have grows := length_le_ikcpFlush flushes
      have bound : x.log.length +
          (kcp.snd.sndBuf.length - party.kcp.snd.sndBuf.length) < 2 ^ 31 :=
        stands.numbered ▸ small
      obtain ⟨x', y', sender, receiver, log, genuine, kept⟩ :=
        endpoint.flush flushes (by omega) bound
      exact ⟨x', y', sender, receiver,
        stands.flushed sender receiver log genuine kept⟩
  | setmtu mtu =>
      obtain rfl := Option.some.inj returns
      exact still _ (endpoint.setmtu valid) rfl rfl
  | interval time =>
      obtain rfl := Option.some.inj returns
      exact still _ (endpoint.keep rfl ⟨rfl, rfl, rfl, rfl⟩ rfl) rfl rfl
  | nodelay mode time resend nc =>
      obtain rfl := Option.some.inj returns
      exact still _ (endpoint.keep rfl
        (keepsWindow_nodelay _ _ _ _ _).toKeepsData rfl)
        rfl rfl
  | wndsize sndwnd rcvwnd =>
      obtain rfl := Option.some.inj returns
      exact still _ (endpoint.wndsize sndwnd rcvwnd) rfl rfl
  | setLossPeriod periodMs =>
      obtain rfl := Option.some.inj returns
      exact still _ (endpoint.keep rfl same rfl) rfl rfl

/-! ## Both parties -/

/-- The link in the states `x`, from here to there, and `y`, back. -/
structure Link.Stands (conv : IUINT32) (x y : State Piece) (link : Link) :
    Prop where
  here : link.here.Stands conv x y
  there : link.there.Stands conv y x
  soundX : Sound x
  soundY : Sound y

variable {link next : Link}

theorem Party.numbered_le_call {label : Call}
    (returns : party.call label = some after) :
    party.numbered ≤ after.numbered := by
  cases label with
  | update current =>
      obtain ⟨⟨sent, kcp⟩, -, rfl⟩ := Option.map_eq_some_iff.mp returns
      exact Nat.le_add_right _ _
  | flush =>
      obtain ⟨⟨sent, kcp⟩, -, rfl⟩ := Option.map_eq_some_iff.mp returns
      exact Nat.le_add_right _ _
  | _ =>
      obtain rfl := Option.some.inj returns
      exact Nat.le_refl _

theorem Link.Stands.step (stands : link.Stands conv x y)
    {label : Side × Call} (permits : link.Permits label)
    (steps : link.step label = some next)
    (smallHere : next.here.numbered < 2 ^ 31)
    (smallThere : next.there.numbered < 2 ^ 31) :
    ∃ x' y', Steps x x' ∧ Steps y y' ∧ next.Stands conv x' y' := by
  obtain ⟨side, call⟩ := label
  cases side with
  | here =>
      obtain ⟨here, returns, rfl⟩ := Option.map_eq_some_iff.mp steps
      have smallY : y.log.length < 2 ^ 31 :=
        stands.there.numbered ▸ smallThere
      obtain ⟨x', y', sender, receiver, kept⟩ := stands.here.call
        stands.there.sent stands.soundX stands.soundY smallY permits.1
        permits.2 returns smallHere
      exact ⟨x', y', sender.steps, receiver.steps,
        { here := kept
          there := stands.there.beside sender receiver
          soundX := stands.soundX.steps sender.steps
          soundY := stands.soundY.steps receiver.steps }⟩
  | there =>
      obtain ⟨there, returns, rfl⟩ := Option.map_eq_some_iff.mp steps
      have smallX : x.log.length < 2 ^ 31 :=
        stands.here.numbered ▸ smallHere
      obtain ⟨y', x', sender, receiver, kept⟩ := stands.there.call
        stands.here.sent stands.soundY stands.soundX smallX permits.1
        permits.2 returns smallThere
      exact ⟨x', y', receiver.steps, sender.steps,
        { here := stands.here.beside sender receiver
          there := kept
          soundX := stands.soundX.steps receiver.steps
          soundY := stands.soundY.steps sender.steps }⟩

theorem Link.numbered_le_step {label : Side × Call}
    (steps : link.step label = some next) :
    link.here.numbered ≤ next.here.numbered ∧
      link.there.numbered ≤ next.there.numbered := by
  obtain ⟨side, call⟩ := label
  cases side with
  | here =>
      obtain ⟨here, returns, rfl⟩ := Option.map_eq_some_iff.mp steps
      exact ⟨Party.numbered_le_call returns, Nat.le_refl _⟩
  | there =>
      obtain ⟨there, returns, rfl⟩ := Option.map_eq_some_iff.mp steps
      exact ⟨Nat.le_refl _, Party.numbered_le_call returns⟩

/-- A new control block is at the start of both directions. -/
theorem stands_fresh {kcp : IkcpCb} (fresh : Fresh kcp) :
    Party.Stands kcp.conv {} {} { kcp } := by
  obtain ⟨conv, stream, fastlimit, deadLink, rfl⟩ := fresh
  constructor
  case endpoint =>
    constructor
    case session => rfl
    case sending =>
      constructor
      case mss =>
        exact show 0 < ikcpMtuDef - ikcpOverhead ∧
          ikcpMtuDef - ikcpOverhead ≤ intMax by decide
      case next => rfl
      case sorted => exact .nil
      case buffered => simp [ikcpCreate]
      case waiting => simp [ikcpCreate]
      case queued => simp [ikcpCreate]
      case accounted => simp [ikcpCreate]
    case collecting =>
      constructor
      case queued => exact ⟨[], rfl, rfl⟩
      case next => rfl
      case sorted => exact .nil
      case early => simp [ikcpCreate]
    case acked => simp [ikcpCreate, Acked]
  case sent => simp
  case numbered => rfl

theorem Link.Initial.stands (initial : link.Initial) :
    link.Stands link.here.kcp.conv {} {} := by
  obtain ⟨freshHere, freshThere, same, here, there⟩ := initial
  constructor
  case here =>
    rw [here]
    exact stands_fresh freshHere
  case there =>
    rw [there, same]
    exact stands_fresh freshThere
  case soundX => exact sound_start
  case soundY => exact sound_start

/-- Every link that can be reached is a run of selective repeat in both
directions. -/
theorem Link.Reachable.stands (reachable : link.Reachable)
    (smallHere : link.here.numbered < 2 ^ 31)
    (smallThere : link.there.numbered < 2 ^ 31) :
    ∃ conv x y, Steps {} x ∧ Steps {} y ∧ link.Stands conv x y := by
  induction reachable with
  | start initial => exact ⟨_, {}, {}, .refl, .refl, initial.stands⟩
  | next _ permits steps ih =>
      obtain ⟨fewerHere, fewerThere⟩ := Link.numbered_le_step steps
      obtain ⟨conv, x, y, runX, runY, stands⟩ :=
        ih (by omega) (by omega)
      obtain ⟨x', y', moreX, moreY, kept⟩ :=
        stands.step permits steps smallHere smallThere
      exact ⟨conv, x', y', runX.trans moreX, runY.trans moreY, kept⟩

theorem Party.inUse_call {label : Call} (inUse : InUse party.kcp)
    (valid : label.Valid) (returns : party.call label = some after) :
    InUse after.kcp := by
  apply TransitionRuns.Reachable.next inUse valid
  cases label with
  | update current =>
      obtain ⟨⟨sent, kcp⟩, updates, rfl⟩ := Option.map_eq_some_iff.mp returns
      exact congrArg (Option.map Prod.snd) updates
  | flush =>
      obtain ⟨⟨sent, kcp⟩, flushes, rfl⟩ := Option.map_eq_some_iff.mp returns
      exact congrArg (Option.map Prod.snd) flushes
  | _ =>
      obtain rfl := Option.some.inj returns
      rfl

theorem Link.Reachable.inUse (reachable : link.Reachable) :
    InUse link.here.kcp ∧ InUse link.there.kcp := by
  induction reachable with
  | start initial => exact ⟨.start initial.1, .start initial.2.1⟩
  | @next before after label _ permits steps ih =>
      obtain ⟨side, call⟩ := label
      cases side with
      | here =>
          obtain ⟨here, returns, rfl⟩ := Option.map_eq_some_iff.mp steps
          exact ⟨Party.inUse_call ih.1 permits.1 returns, ih.2⟩
      | there =>
          obtain ⟨there, returns, rfl⟩ := Option.map_eq_some_iff.mp steps
          exact ⟨ih.1, Party.inUse_call ih.2 permits.1 returns⟩

/-! ## What the users see -/

/-- What is read is the beginning of what the log carries. -/
theorem Collecting.handed_prefix {handed : List UInt8} {rcv : ReceiveSide}
    (collecting : Collecting x handed rcv) (sound : Sound x) :
    handed <+: x.log.flatMap Prod.snd := by
  obtain ⟨read, received, rfl⟩ := collecting.queued
  obtain ⟨rest, whole⟩ := sound.ordered
  rw [← whole, received, List.append_assoc, List.flatMap_append]
  exact List.prefix_append _ _

theorem Party.Stands.handed_prefix (sender : party.Stands conv x y)
    (receiver : peer.Stands conv y x) (sound : Sound x) :
    peer.handed <+: party.accepted := by
  rw [sender.endpoint.sending.accounted]
  exact (receiver.endpoint.collecting.handed_prefix sound).trans
    (List.prefix_append _ _)

/-- What either user reads is the beginning of what the other has handed over:
nothing is lost in between, repeated or out of order. -/
theorem Link.Reachable.reads_in_order (reachable : link.Reachable)
    (smallHere : link.here.numbered < 2 ^ 31)
    (smallThere : link.there.numbered < 2 ^ 31) :
    link.there.handed <+: link.here.accepted ∧
      link.here.handed <+: link.there.accepted := by
  obtain ⟨conv, x, y, -, -, stands⟩ := reachable.stands smallHere smallThere
  exact ⟨stands.here.handed_prefix stands.there stands.soundX,
    stands.there.handed_prefix stands.here stands.soundY⟩

/-- What a party has received of the other one: what its user has read, then
the receive queue, then the receive buffer. -/
def Party.holding (party : Party) : List UInt8 :=
  party.handed ++ party.kcp.rcv.rcvQueue.flatMap Seg.data ++
    party.kcp.rcv.rcvBuf.flatMap Seg.data

theorem Party.Stands.holding_eq (sender : party.Stands conv x y)
    (receiver : peer.Stands conv y x) (sound : Sound x)
    (buffer : party.kcp.snd.sndBuf = []) (queue : party.kcp.snd.sndQueue = []) :
    peer.holding = party.accepted := by
  have sending := sender.endpoint.sending
  have collecting := receiver.endpoint.collecting
  have nothing : x.waiting = ∅ := by
    ext index
    simp [sending.waiting, buffer]
  have log := sound.log_eq nothing
    (by simpa [Function.comp_def, entry] using collecting.sorted)
    collecting.early
  obtain ⟨read, received, isHanded⟩ := collecting.queued
  rw [Party.holding, sending.accounted, queue, log, received, isHanded]
  simp only [List.flatMap_append, List.flatMap_map, List.map_map,
    List.flatMap_nil, List.append_nil]
  rfl

/-- When `ikcp_waitsnd` says that nothing waits, the other party has received
everything that has been handed over. -/
theorem Link.Reachable.received_all (reachable : link.Reachable)
    (smallHere : link.here.numbered < 2 ^ 31)
    (smallThere : link.there.numbered < 2 ^ 31) :
    (ikcpWaitsnd link.here.kcp = 0 →
      link.there.holding = link.here.accepted) ∧
      (ikcpWaitsnd link.there.kcp = 0 →
        link.here.holding = link.there.accepted) := by
  obtain ⟨conv, x, y, -, -, stands⟩ := reachable.stands smallHere smallThere
  rw [ikcpWaitsnd_eq reachable.inUse.1, ikcpWaitsnd_eq reachable.inUse.2]
  constructor
  · intro idle
    exact stands.here.holding_eq stands.there stands.soundX
      (List.eq_nil_of_length_eq_zero (by omega))
      (List.eq_nil_of_length_eq_zero (by omega))
  · intro idle
    exact stands.there.holding_eq stands.here stands.soundY
      (List.eq_nil_of_length_eq_zero (by omega))
      (List.eq_nil_of_length_eq_zero (by omega))

/-- The party still keeps the segment with a number. -/
def Party.Keeps (party : Party) (index : Nat) : Prop :=
  ∃ seg ∈ party.kcp.snd.sndBuf, number seg = index

/-- The party has received the segment with a number. -/
def Party.Received (party : Party) (index : Nat) : Prop :=
  index < party.kcp.rcv.rcvNxt.toNat ∨
    ∃ seg ∈ party.kcp.rcv.rcvBuf, number seg = index

theorem Party.Stands.kept_or_received (sender : party.Stands conv x y)
    (receiver : peer.Stands conv y x) (sound : Sound x) {index : Nat}
    (given : index < party.numbered) :
    party.Keeps index ∨ peer.Received index := by
  have collecting := receiver.endpoint.collecting
  by_cases kept : index ∈ x.waiting
  · left
    exact List.mem_map.mp ((sender.endpoint.sending.waiting index).mp kept)
  · right
    rw [← sender.numbered] at given
    rcases sound.safe index given kept with below | ⟨item, early⟩
    · left
      rw [collecting.next]
      exact below
    · right
      obtain ⟨seg, inside, same⟩ :=
        List.mem_map.mp ((collecting.early _).mp early)
      exact ⟨seg, inside, congrArg Prod.fst same⟩

/-- A segment that has been numbered stays in the send buffer until the other
party has received it. -/
theorem Link.Reachable.kept_until_received (reachable : link.Reachable)
    (smallHere : link.here.numbered < 2 ^ 31)
    (smallThere : link.there.numbered < 2 ^ 31) (index : Nat) :
    (index < link.here.numbered →
      link.here.Keeps index ∨ link.there.Received index) ∧
      (index < link.there.numbered →
        link.there.Keeps index ∨ link.here.Received index) := by
  obtain ⟨conv, x, y, -, -, stands⟩ := reachable.stands smallHere smallThere
  exact ⟨stands.here.kept_or_received stands.there stands.soundX,
    stands.there.kept_or_received stands.here stands.soundY⟩

/-! ## One exchange -/

instance (call : Call) : Decidable call.Valid :=
  match call with
  | .send buffer => inferInstanceAs (Decidable (buffer.length ≤ intMax))
  | .input data => inferInstanceAs (Decidable (data.length ≤ 2 ^ 63 - 1))
  | .recv _ => inferInstanceAs (Decidable (_ ∧ _))
  | .setmtu mtu => inferInstanceAs (Decidable (mtu ≤ intMax))
  | .interval time => inferInstanceAs (Decidable (time ≤ intMax))
  | .nodelay .. => inferInstanceAs (Decidable (_ ∧ _))
  | .wndsize .. => inferInstanceAs (Decidable (_ ∧ _))
  | .update _ | .flush | .setLossPeriod _ => instDecidableTrue

instance (peer : Party) (call : Call) : Decidable (Arrives peer call) :=
  match call with
  | .input data => inferInstanceAs (Decidable (data ∈ peer.sent))
  | .send _ | .recv _ | .update _ | .flush | .setmtu _ | .interval _
  | .nodelay .. | .wndsize .. | .setLossPeriod _ => instDecidableTrue

instance (link : Link) (label : Side × Call) :
    Decidable (link.Permits label) :=
  match label with
  | (.here, _) => inferInstanceAs (Decidable (_ ∧ _))
  | (.there, _) => inferInstanceAs (Decidable (_ ∧ _))

/-- Two control blocks of conversation 7. -/
def newLink : Link where
  here := { kcp := ikcpCreate 7 }
  there := { kcp := ikcpCreate 7 }

/-- Three bytes as the datagram of a new control block. -/
def dataDatagram : List UInt8 :=
  datagram [{ conv := 7, cmd := ikcpCmdPush, wnd := 128, data := [1, 2, 3] }]

/-- Their acknowledgement, for each time they have arrived. -/
def ackDatagram : List UInt8 :=
  datagram (.replicate 2
    { conv := 7, cmd := ikcpCmdAck, wnd := 128, una := 1, data := [] })

/-- Three bytes go over, twice, are read and acknowledged. -/
def exchange : List (Side × Call) :=
  [(.here, .send [1, 2, 3]), (.here, .update 0), (.here, .flush),
    (.there, .input dataDatagram), (.there, .input dataDatagram),
    (.there, .recv 10), (.there, .update 0), (.here, .input ackDatagram)]

theorem exchange_reachable {link : Link}
    (runs : TransitionRuns.run Link.step newLink exchange = some link) :
    link.Reachable := by
  have initial : newLink.Initial :=
    ⟨⟨7, false, 5, 20, rfl⟩, ⟨7, false, 5, 20, rfl⟩, rfl, rfl, rfl⟩
  have meets :
      TransitionRuns.StepsMeet Link.step Link.Permits newLink exchange := by
    decide +kernel
  exact TransitionRuns.Reachable.append_run (.start initial) meets runs

/-- What the exchange leaves behind. -/
theorem exists_exchange : ∃ link,
    TransitionRuns.run Link.step newLink exchange = some link ∧
      link.here.numbered = 1 ∧ link.there.numbered = 0 ∧
      link.there.handed = [1, 2, 3] ∧ ikcpWaitsnd link.here.kcp = 0 := by
  have ends : (TransitionRuns.run Link.step newLink exchange).map (fun link =>
      (link.here.numbered, link.there.numbered, link.there.handed,
        ikcpWaitsnd link.here.kcp)) = some (1, 0, [1, 2, 3], 0) := by
    decide +kernel
  obtain ⟨link, runs, same⟩ := Option.map_eq_some_iff.mp ends
  simp only [Prod.mk.injEq] at same
  exact ⟨link, runs, same.1, same.2.1, same.2.2.1, same.2.2.2⟩

/-- The three bytes that have been read are what was handed over. -/
theorem exchange_in_order : ∃ link,
    TransitionRuns.run Link.step newLink exchange = some link ∧
      [1, 2, 3] <+: link.here.accepted := by
  obtain ⟨link, runs, here, there, handed, -⟩ := exists_exchange
  have order := (exchange_reachable runs).reads_in_order
    (by omega) (by omega)
  exact ⟨link, runs, handed ▸ order.1⟩

/-- Nothing waits any more, so everything is on the other side. -/
theorem exchange_received : ∃ link,
    TransitionRuns.run Link.step newLink exchange = some link ∧
      link.there.holding = link.here.accepted := by
  obtain ⟨link, runs, here, there, -, idle⟩ := exists_exchange
  have received := (exchange_reachable runs).received_all
    (by omega) (by omega)
  exact ⟨link, runs, received.1 idle⟩

/-- Segment zero has been received or is still kept. -/
theorem exchange_kept : ∃ link,
    TransitionRuns.run Link.step newLink exchange = some link ∧
      (link.here.Keeps 0 ∨ link.there.Received 0) := by
  obtain ⟨link, runs, here, there, -, -⟩ := exists_exchange
  have kept := (exchange_reachable runs).kept_until_received
    (by omega) (by omega) 0
  exact ⟨link, runs, kept.1 (by omega)⟩

end CommonIkcp

end MbedtlsKcp

import Lantun.Data.Places
import Lantun.Pair.Exchange

namespace Lantun
namespace Pair

open Async Client Net

/-!
# Which stream belongs to which application

The client's part of the invariant speaks about the contents of the control
streams, the host's about what has been collected from them, and each side's steps
leave the other's alone.  They meet at one place: behind the last byte of a
finished stream the handler has collected all of its contents, and it has taken as
many streams of the one kind as of the other.
-/

namespace Exchange

/-- A session registered on the `k`-th bidirectional stream is stored with the
address of the application the `k`-th bidirectional stream was opened for. -/
def Agrees (exchange : Exchange) : Prop :=
  ∀ entry ∈ exchange.registered, exchange.opened[entry.1]? = some entry.2.clientLocalAddr

/-! ## What the client has sent, and what the host has collected -/

/-- What the client has put on each control stream, and how it has left it. -/
def contents (exchange : Exchange) : List (List UInt8 × Option Ending) :=
  exchange.controls.map fun stream => (stream.accepted, stream.ending)

/-- What the host has read from each control stream. -/
def collected (exchange : Exchange) : List (List UInt8) := exchange.controls.map Stream.consumed

theorem contents_setControl (exchange : Exchange) (index : Nat) (stream : Stream) :
    (exchange.setControl index stream).contents =
      exchange.contents.set index (stream.accepted, stream.ending) :=
  List.map_set

theorem collected_setControl (exchange : Exchange) (index : Nat) (stream : Stream) :
    (exchange.setControl index stream).collected =
      exchange.collected.set index stream.consumed :=
  List.map_set

theorem contents_of_found {exchange : Exchange} {index : Nat} {stream : Stream}
    (found : exchange.controls[index]? = some stream) :
    exchange.contents[index]? = some (stream.accepted, stream.ending) := by
  rw [contents, List.getElem?_map, found]
  rfl

theorem collected_of_found {exchange : Exchange} {index : Nat} {stream : Stream}
    (found : exchange.controls[index]? = some stream) :
    exchange.collected[index]? = some stream.consumed := by
  rw [collected, List.getElem?_map, found]
  rfl

/-- Everything but a write and the drop of a send half keeps the contents. -/
theorem contents_kept {exchange : Exchange} {index : Nat} {before after : Stream}
    (found : exchange.controls[index]? = some before)
    (accepted : after.accepted = before.accepted) (ending : after.ending = before.ending) :
    (exchange.setControl index after).contents = exchange.contents :=
  map_set_same found (by rw [accepted, ending])

/-- Everything but a read keeps what has been collected. -/
theorem collected_kept {exchange : Exchange} {index : Nat} {before after : Stream}
    (found : exchange.controls[index]? = some before)
    (consumed : after.consumed = before.consumed) :
    (exchange.setControl index after).collected = exchange.collected :=
  map_set_same found consumed

theorem contents_length (exchange : Exchange) :
    exchange.contents.length = exchange.controls.length :=
  List.length_map _

theorem collected_length (exchange : Exchange) :
    exchange.collected.length = exchange.controls.length :=
  List.length_map _

/-! ## The client's side

A control stream that finished carries the request for the application its place
belongs to.  Between two calls of `send_packet` there are as many streams of
either kind; inside one, the bidirectional stream of the application is the last. -/

structure Sends (bincode : Bincode) (exchange : Exchange) : Prop where
  finished : ∀ (index : Nat) (bytes : List UInt8), exchange.contents[index]? = some (bytes, some Ending.fin) →
    ∃ addr, exchange.opened[index]? = some addr ∧ bytes = bincode.encodeToVec (.connReq addr)
  decodable : ∀ addr ∈ exchange.opened, bincode.Inverts addr
  upcoming : ∀ addr, exchange.client.listener = .opening addr → bincode.Inverts addr
  between : exchange.client.listener.between = true →
    exchange.contents.length = exchange.opened.length
  current : ∀ addr, exchange.client.listener = .sending addr →
    exchange.opened.getLast? = some addr
  unopened : ∀ addr, exchange.client.listener = .sending addr → exchange.sending = .openUni →
    exchange.contents.length + 1 = exchange.opened.length
  written : ∀ addr, exchange.client.listener = .sending addr → exchange.sending ≠ .openUni →
    exchange.contents.length = exchange.opened.length ∧
      ∃ bytes, exchange.contents.getLast? = some (bytes, none) ∧
        bytes ++ exchange.sending.rest = bincode.encodeToVec (.connReq addr)

/-- Nothing but these four matters to the client's side. -/
theorem Sends.of_kept {bincode : Bincode} {exchange next : Exchange} (sends : exchange.Sends bincode)
    (listener : next.client.listener = exchange.client.listener)
    (sending : next.sending = exchange.sending) (opened : next.opened = exchange.opened)
    (contents : next.contents = exchange.contents) : next.Sends bincode where
  finished := by
    rw [contents, opened]
    exact sends.finished
  decodable := by
    rw [opened]
    exact sends.decodable
  upcoming := by
    rw [listener]
    exact sends.upcoming
  between := by
    rw [listener, contents, opened]
    exact sends.between
  current := by
    rw [listener, opened]
    exact sends.current
  unopened := by
    rw [listener, sending, contents, opened]
    exact sends.unopened
  written := by
    rw [listener, sending, contents, opened]
    exact sends.written

/-- The listener moves on outside `send_packet`, or the task ends. -/
theorem Sends.elsewhere {bincode : Bincode} {exchange : Exchange} {client : Connected}
    (sends : exchange.Sends bincode)
    (from_ : client.listener.between = true → exchange.client.listener.between = true)
    (to_ : client.listener.between = true ∨ client.listener.isEnded = true)
    (upcoming : ∀ addr, client.listener = .opening addr → bincode.Inverts addr) :
    Sends bincode { exchange with client } where
  finished := sends.finished
  decodable := sends.decodable
  upcoming := upcoming
  between lives := sends.between (from_ lives)
  current addr at_ := by
    change client.listener = .sending addr at at_
    rw [at_] at to_
    rcases to_ with absurd | absurd <;> cases absurd
  unopened addr at_ := by
    change client.listener = .sending addr at at_
    rw [at_] at to_
    rcases to_ with absurd | absurd <;> cases absurd
  written addr at_ := by
    change client.listener = .sending addr at at_
    rw [at_] at to_
    rcases to_ with absurd | absurd <;> cases absurd

/-- `open_bi` returns, and `send_packet` begins. -/
theorem Sends.biOpened {bincode : Bincode} {exchange : Exchange} {client : Connected}
    {addr : SocketAddr} (sends : exchange.Sends bincode)
    (from_ : exchange.client.listener = .opening addr) (to_ : client.listener = .sending addr) :
    Sends bincode { exchange with
      client
      sending := .openUni
      opened := exchange.opened ++ [addr] } where
  finished index bytes found := by
    rcases sends.finished index bytes found with ⟨other, here, carries⟩
    exact ⟨other, getElem?_append_of_found here _, carries⟩
  decodable other listed := by
    rcases List.mem_append.mp listed with before | last
    · exact sends.decodable other before
    · rw [List.mem_singleton.mp last]
      exact sends.upcoming addr from_
  upcoming other at_ := by
    change client.listener = .opening other at at_
    rw [to_] at at_
    cases at_
  between at_ := by
    change client.listener.between = true at at_
    rw [to_] at at_
    cases at_
  current other at_ := by
    change client.listener = .sending other at at_
    rw [to_] at at_
    cases at_
    exact List.getLast?_concat
  unopened _ _ _ := by
    have even : exchange.contents.length = exchange.opened.length :=
      sends.between (by rw [from_]; rfl)
    change exchange.contents.length + 1 = (exchange.opened ++ [addr]).length
    rw [List.length_append, even]
    rfl
  written _ _ begun := absurd rfl begun

/-- `open_uni` returns, and `write_all` begins. -/
theorem Sends.uniOpened {bincode : Bincode} {exchange : Exchange} {addr : SocketAddr}
    (sends : exchange.Sends bincode) (at_ : exchange.client.listener = .sending addr)
    (unopened : exchange.sending = .openUni) :
    Sends bincode { exchange with
      sending := .writing (bincode.encodeToVec (.connReq addr))
      controls := exchange.controls ++ [.opened] } where
  finished index bytes found := by
    rw [contents, List.map_append] at found
    rcases getElem?_concat_cases found with before | ⟨_, last⟩
    · exact sends.finished index bytes before
    · cases last
  decodable := sends.decodable
  upcoming := sends.upcoming
  between inside := by
    change exchange.client.listener.between = true at inside
    rw [at_] at inside
    cases inside
  current := sends.current
  unopened _ _ begun := absurd begun (SendPacket.writing_ne_openUni _)
  written other same _ := by
    cases at_.symm.trans same
    refine ⟨?_, [], ?_, ?_⟩
    · rw [contents, List.map_append, List.length_append]
      exact sends.unopened addr at_ unopened
    · rw [contents, List.map_append]
      exact List.getLast?_concat
    · rw [List.nil_append]
      exact SendPacket.rest_writing _

/-- The content of one control stream changes; what it carries if it finishes with
that is the only thing to be shown. -/
theorem Sends.finished_set {bincode : Bincode} {exchange : Exchange} {place : Nat}
    {content : List UInt8 × Option Ending} (sends : exchange.Sends bincode)
    (carries : content.2 = some .fin →
      ∃ addr, exchange.opened[place]? = some addr ∧
        content.1 = bincode.encodeToVec (.connReq addr)) (index : Nat) (bytes : List UInt8)
    (found : (exchange.contents.set place content)[index]? = some (bytes, some Ending.fin)) :
    ∃ addr, exchange.opened[index]? = some addr ∧ bytes = bincode.encodeToVec (.connReq addr) := by
  rw [List.getElem?_set] at found
  split at found
  · rename_i same
    subst same
    split at found
    · cases found
      exact carries rfl
    · cases found
  · exact sends.finished index bytes found

/-- The content of the control stream on which `send_packet` is at work. -/
theorem Sends.last {bincode : Bincode} {exchange : Exchange} {addr : SocketAddr} {stream : Stream}
    (sends : exchange.Sends bincode) (at_ : exchange.client.listener = .sending addr)
    (begun : exchange.sending ≠ .openUni)
    (found : exchange.controls[exchange.lastControl]? = some stream) :
    stream.ending = none ∧
      stream.accepted ++ exchange.sending.rest = bincode.encodeToVec (.connReq addr) ∧
      exchange.opened[exchange.lastControl]? = some addr := by
  rcases sends.written addr at_ begun with ⟨even, bytes, content, rest⟩
  have place : exchange.contents.length - 1 = exchange.lastControl := by
    rw [contents_length, lastControl]
  rw [List.getLast?_eq_getElem?, place, contents_of_found found] at content
  rcases Prod.mk.inj (Option.some.inj content) with ⟨accepted, ending⟩
  refine ⟨ending, accepted ▸ rest, ?_⟩
  rw [← place, even, ← List.getLast?_eq_getElem?]
  exact sends.current addr at_

/-- A part of the request is accepted. -/
theorem Sends.writes {bincode : Bincode} {exchange : Exchange} {addr : SocketAddr}
    {stream : Stream} {rest : List UInt8} (sends : exchange.Sends bincode)
    (at_ : exchange.client.listener = .sending addr) (inside : exchange.sending = .writeAll rest)
    (found : exchange.controls[exchange.lastControl]? = some stream) (count : Nat) :
    Sends bincode { exchange.setControl exchange.lastControl (stream.write (rest.take count)) with
      sending := .writing (rest.drop count) } := by
  have begun : exchange.sending ≠ .openUni := by
    rw [inside]
    exact SendPacket.noConfusion
  rcases sends.last at_ begun found with ⟨unended, whole, _⟩
  have contents_ : (exchange.setControl exchange.lastControl
      (stream.write (rest.take count))).contents =
        exchange.contents.set exchange.lastControl (stream.accepted ++ rest.take count, none) := by
    rw [contents_setControl, Stream.write_accepted, Stream.write_ending, unended]
  refine ⟨?_, sends.decodable, sends.upcoming, ?_, sends.current, ?_, ?_⟩
  · intro index bytes there
    exact sends.finished_set (fun absurd => by cases absurd) index bytes (contents_ ▸ there)
  · intro between
    change exchange.client.listener.between = true at between
    rw [at_] at between
    cases between
  · intro _ _ absurd_
    exact absurd absurd_ (SendPacket.writing_ne_openUni _)
  · intro other same _
    cases at_.symm.trans same
    refine ⟨?_, stream.accepted ++ rest.take count, ?_, ?_⟩
    · change (exchange.setControl _ _).contents.length = _
      rw [contents_, List.length_set]
      exact (sends.written addr at_ begun).1
    · change (exchange.setControl _ _).contents.getLast? = _
      rw [contents_, lastControl, ← contents_length]
      exact getLast?_set_last (List.ne_nil_of_mem (List.mem_of_getElem? (contents_of_found found))) _
    · rw [SendPacket.rest_writing, List.append_assoc, List.take_append_drop, ← whole, inside]
      rfl

/-- `send_packet` is left, and the send half of its stream dropped.  The stream
finishes only if nothing of the request was missing. -/
theorem Sends.dropped {bincode : Bincode} {exchange : Exchange} {client : Connected}
    {addr : SocketAddr} {stream : Stream} {lost : Bool} (sends : exchange.Sends bincode)
    (at_ : exchange.client.listener = .sending addr) (begun : exchange.sending ≠ .openUni)
    (found : exchange.controls[exchange.lastControl]? = some stream)
    (cut : lost = true ∨ stream.stopped = true ∨ exchange.sending.rest = [])
    (to_ : client.listener.between = true ∨ client.listener.isEnded = true)
    (elsewhere : ∀ addr, client.listener ≠ .opening addr) :
    Sends bincode { exchange.setControl exchange.lastControl (stream.dropSend lost) with client } := by
  rcases sends.last at_ begun found with ⟨unended, whole, place⟩
  have not_sending : ∀ addr, client.listener ≠ .sending addr := by
    intro other at_
    rw [at_] at to_
    rcases to_ with absurd | absurd <;> cases absurd
  refine ⟨?_, sends.decodable, fun other at_ => absurd at_ (elsewhere other), ?_,
    fun other at_ => absurd at_ (not_sending other), fun other at_ => absurd at_ (not_sending other),
    fun other at_ => absurd at_ (not_sending other)⟩
  · intro index bytes there
    refine sends.finished_set ?_ index bytes
      (contents_setControl exchange _ _ ▸ there)
    intro finished
    rcases Stream.dropSend_fin stream finished with absurd | ⟨kept, reads⟩
    · rw [unended] at absurd
      cases absurd
    · have nothing : exchange.sending.rest = [] := by
        rcases cut with gone | stops | nothing
        · rw [kept] at gone
          cases gone
        · rw [reads] at stops
          cases stops
        · exact nothing
      rw [nothing, List.append_nil] at whole
      exact ⟨addr, place, (Stream.dropSend_accepted stream lost).trans whole⟩
  · intro _
    change (exchange.setControl _ _).contents.length = exchange.opened.length
    rw [contents_setControl, List.length_set]
    exact (sends.written addr at_ begun).1

/-- A step of the listener keeps the client's side. -/
theorem Sends.listenerStep {bincode : Bincode} {protocol : TunnelProtocol}
    {exchange next : Exchange} {act : ListenerAct} (sends : exchange.Sends bincode)
    (inverts : ∀ addr, act = .incoming addr → bincode.Inverts addr)
    (taken : exchange.listenerStep protocol act = some next) : next.Sends bincode := by
  rcases Option.bind_eq_some_iff.mp taken with ⟨client, moved, rest⟩
  have quiet : act ≠ .opened ∧ act ≠ .sent ∧ act ≠ .sendFails →
      next = { exchange with client } → next.Sends bincode := by
    intro elsewhere same
    subst same
    rcases Connected.step_between elsewhere moved with same | ⟨from_, to_, opening⟩
    · exact sends.of_kept same rfl rfl rfl
    · exact sends.elsewhere (fun _ => from_) to_ (fun addr at_ => inverts addr (opening addr at_))
  cases act with
  | opened =>
      simp only [Connected.step] at moved
      split at moved
      · rename_i addr at_
        split at moved <;> cases moved
        simp only [at_] at rest
        cases rest
        exact sends.biOpened at_ rfl
      · cases moved
  | sent =>
      simp only [Connected.step] at moved
      split at moved
      · rename_i addr at_
        split at moved <;> cases moved
        simp only at rest
        split at rest
        · rename_i done
          rcases Option.map_eq_some_iff.mp rest with ⟨stream, found, same⟩
          subst same
          refine sends.dropped at_ ?_ found (.inr (.inr ?_)) (.inl rfl) (fun _ => Listener.noConfusion)
          · rw [done]
            exact SendPacket.noConfusion
          · rw [done]
            rfl
        · cases rest
      · cases moved
  | sendFails =>
      simp only [Connected.step] at moved
      split at moved
      · rename_i addr at_
        cases moved
        simp only at rest
        split at rest
        · split at rest <;> cases rest
          exact sends.elsewhere (fun absurd => by cases absurd) (.inr rfl)
            (fun _ absurd => by cases absurd)
        · rename_i begun
          rcases Option.bind_eq_some_iff.mp rest with ⟨stream, found, cut⟩
          split at cut
          · rename_i reason
            cases cut
            rcases (Bool.or_eq_true _ _).mp reason with lost | stops
            · exact sends.dropped at_ begun found (.inl lost) (.inr rfl)
                (fun _ => Listener.noConfusion)
            · exact sends.dropped at_ begun found (.inr (.inl stops)) (.inr rfl)
                (fun _ => Listener.noConfusion)
          · cases cut
      · cases moved
  | bound | bindFails | stop | incoming | incomingFails | openFails | forwarderEnds | join | detachedEnds =>
      cases rest
      exact quiet (by simp) rfl

/-! ## The host's side

The handler takes a control stream for every bidirectional stream, and what it
has put into its buffer is what it has read from the control stream it took
last. -/

structure Receives (exchange : Exchange) : Prop where
  known : exchange.knownUni ≤ exchange.collected.length
  unread : ∀ (index : Nat) (bytes : List UInt8), exchange.received ≤ index →
    exchange.collected[index]? = some bytes → bytes = []
  idle : exchange.handler = .acceptBi → exchange.accepted = exchange.received
  serving : ∀ addr, exchange.handler = .serving addr → exchange.accepted = exchange.received
  behind : exchange.handler = .acceptUni → exchange.accepted = exchange.received + 1
  reading : ∀ buf, exchange.handler = .reading buf →
    exchange.accepted = exchange.received ∧ 0 < exchange.received ∧
      exchange.collected[exchange.received - 1]? = some buf

/-- The client and the network do not touch what has been collected. -/
theorem Receives.of_kept {exchange next : Exchange} (receives : exchange.Receives)
    (handler : next.handler = exchange.handler) (accepted : next.accepted = exchange.accepted)
    (received : next.received = exchange.received)
    (known : next.knownUni ≤ exchange.collected.length)
    (collected : next.collected = exchange.collected) : next.Receives where
  known := by
    rw [collected]
    exact known
  unread := by
    rw [collected, received]
    exact receives.unread
  idle := by
    rw [handler, accepted, received]
    exact receives.idle
  serving := by
    rw [handler, accepted, received]
    exact receives.serving
  behind := by
    rw [handler, accepted, received]
    exact receives.behind
  reading := by
    rw [handler, accepted, received, collected]
    exact receives.reading

/-- A control stream is opened. -/
theorem Receives.uniOpened {exchange : Exchange} (receives : exchange.Receives)
    (sending : SendPacket) :
    Receives { exchange with sending, controls := exchange.controls ++ [.opened] } := by
  have grown : collected { exchange with sending, controls := exchange.controls ++ [.opened] } =
      exchange.collected ++ [[]] := List.map_append
  refine ⟨?_, ?_, receives.idle, receives.serving, receives.behind, ?_⟩
  · rw [grown, List.length_append]
    exact Nat.le_add_right_of_le receives.known
  · intro index bytes behind here
    rw [grown] at here
    rcases getElem?_concat_cases here with before | ⟨_, last⟩
    · exact receives.unread index bytes behind before
    · exact last
  · intro buf at_
    rcases receives.reading buf at_ with ⟨even, some_, here⟩
    refine ⟨even, some_, ?_⟩
    rw [grown]
    exact getElem?_append_of_found here _

/-- Nothing is asked of a handler that has returned. -/
theorem Receives.returns {exchange next : Exchange} (receives : exchange.Receives)
    (handler : next.handler = .returned) (received : next.received = exchange.received)
    (known : next.knownUni = exchange.knownUni)
    (collected : next.collected = exchange.collected) : next.Receives where
  known := by
    rw [collected, known]
    exact receives.known
  unread := by
    rw [collected, received]
    exact receives.unread
  idle := by
    rw [handler]
    exact Handler.noConfusion
  serving addr := by
    rw [handler]
    exact Handler.noConfusion
  behind := by
    rw [handler]
    exact Handler.noConfusion
  reading buf := by
    rw [handler]
    exact Handler.noConfusion

theorem Receives.acceptBi {exchange : Exchange} (receives : exchange.Receives)
    (at_ : exchange.handler = .acceptBi) :
    Receives { exchange with handler := .acceptUni, accepted := exchange.accepted + 1 } where
  known := receives.known
  unread := receives.unread
  idle := Handler.noConfusion
  serving _ := Handler.noConfusion
  behind _ := congrArg (· + 1) (receives.idle at_)
  reading _ := Handler.noConfusion

theorem Receives.acceptUni {exchange : Exchange} (receives : exchange.Receives)
    (at_ : exchange.handler = .acceptUni) (known : exchange.received < exchange.knownUni) :
    Receives { exchange with handler := .reading [], received := exchange.received + 1 } where
  known := receives.known
  unread index bytes behind := receives.unread index bytes (Nat.le_of_succ_le behind)
  idle := Handler.noConfusion
  serving _ := Handler.noConfusion
  behind := Handler.noConfusion
  reading buf same := by
    cases same
    refine ⟨receives.behind at_, Nat.succ_pos _, ?_⟩
    have bound : exchange.received < exchange.collected.length :=
      Nat.lt_of_lt_of_le known receives.known
    have here : exchange.collected[exchange.received]? = some exchange.collected[exchange.received] :=
      List.getElem?_eq_getElem bound
    change exchange.collected[exchange.received]? = some []
    rw [here, receives.unread _ _ (Nat.le_refl _) here]

/-- A read moves its bytes from the control stream into the buffer. -/
theorem Receives.read {exchange : Exchange} {buf : List UInt8} {stream : Stream} {count : Nat}
    (receives : exchange.Receives) (at_ : exchange.handler = .reading buf)
    (found : exchange.controls[exchange.received - 1]? = some stream)
    (enough : count ≤ stream.arrived - stream.pos) :
    Receives { exchange.setControl (exchange.received - 1) (stream.read count enough) with
      handler := .reading (buf ++ stream.chunk count) } := by
  rcases receives.reading buf at_ with ⟨even, some_, here⟩
  have so_far : stream.consumed = buf :=
    Option.some.inj ((collected_of_found found).symm.trans here)
  have collected_ : (exchange.setControl (exchange.received - 1)
      (stream.read count enough)).collected =
        exchange.collected.set (exchange.received - 1) (buf ++ stream.chunk count) := by
    rw [collected_setControl, Stream.read_consumed, so_far]
  refine ⟨?_, ?_, Handler.noConfusion, fun _ => Handler.noConfusion, Handler.noConfusion, ?_⟩
  · change _ ≤ (exchange.setControl _ _).collected.length
    rw [collected_, List.length_set]
    exact receives.known
  · intro index bytes behind there
    change (exchange.setControl _ _).collected[index]? = some bytes at there
    change exchange.received ≤ index at behind
    rw [collected_, List.getElem?_set_ne (by omega)] at there
    exact receives.unread index bytes behind there
  · intro now same
    cases same
    refine ⟨even, some_, ?_⟩
    change (exchange.setControl _ _).collected[exchange.received - 1]? = _
    rw [collected_, List.getElem?_set_self (List.getElem?_eq_some_iff.mp here).1]

/-- What the handler has collected behind the last byte of a finished stream is the
request for the application whose bidirectional stream it accepted last. -/
theorem Receives.request {bincode : Bincode} {exchange : Exchange} {buf : List UInt8}
    {stream : Stream} (receives : exchange.Receives) (sends : exchange.Sends bincode)
    (at_ : exchange.handler = .reading buf)
    (found : exchange.controls[exchange.received - 1]? = some stream)
    (finished : stream.poll exchange.lost = .finished) :
    ∃ addr, exchange.opened[exchange.accepted - 1]? = some addr ∧
      bincode.decodeFromSlice buf = some (.connReq addr) := by
  rcases receives.reading buf at_ with ⟨even, _, here⟩
  rcases stream.poll_finished finished with ⟨ending, whole⟩
  have content : exchange.contents[exchange.received - 1]? = some (buf, some Ending.fin) := by
    have so_far := Option.some.inj ((collected_of_found found).symm.trans here)
    rw [contents_of_found found, ending, ← whole, so_far]
  rcases sends.finished _ _ content with ⟨addr, place, carries⟩
  refine ⟨addr, even ▸ place, ?_⟩
  rw [carries]
  exact sends.decodable addr (List.mem_of_getElem? place)

/-! ## Both sides -/

structure Inv (bincode : Bincode) (exchange : Exchange) : Prop where
  sends : exchange.Sends bincode
  receives : exchange.Receives
  agrees : exchange.Agrees

theorem inv_started (bincode : Bincode) : started.Inv bincode where
  sends :=
    { finished := fun _ _ found => by cases found
      decodable := fun _ listed => by cases listed
      upcoming := fun _ at_ => by cases at_
      between := fun _ => rfl
      current := fun _ at_ => by cases at_
      unopened := fun _ at_ => by cases at_
      written := fun _ at_ => by cases at_ }
  receives :=
    { known := Nat.le_refl 0
      unread := fun _ _ _ found => by cases found
      idle := fun _ => rfl
      serving := fun _ at_ => by cases at_
      behind := fun at_ => by cases at_
      reading := fun _ at_ => by cases at_ }
  agrees _ listed := by cases listed

/-- The message behind the last byte of a control stream is registered. -/
theorem Inv.receive {bincode : Bincode} {exchange : Exchange} {buf : List UInt8} {stream : Stream}
    (inv : exchange.Inv bincode) (at_ : exchange.handler = .reading buf)
    (found : exchange.controls[exchange.received - 1]? = some stream)
    (finished : stream.poll exchange.lost = .finished) :
    (exchange.receive bincode buf).Inv bincode := by
  rcases inv.receives.request inv.sends at_ found finished with ⟨addr, place, decoded⟩
  have even := (inv.receives.reading buf at_).1
  unfold Exchange.receive
  rw [decoded]
  refine ⟨inv.sends.of_kept rfl rfl rfl rfl, ?_, ?_⟩
  · exact
      { known := inv.receives.known
        unread := inv.receives.unread
        idle := Handler.noConfusion
        serving := fun _ _ => even
        behind := Handler.noConfusion
        reading := fun _ => Handler.noConfusion }
  · intro entry listed
    rcases List.mem_append.mp listed with before | last
    · exact inv.agrees entry before
    · rw [List.mem_singleton.mp last]
      exact place

/-- The handler consumes from the control streams and writes nothing to them. -/
theorem Inv.hostStep {bincode : Bincode} {exchange next : Exchange} {act : HandlerAct}
    (inv : exchange.Inv bincode) (taken : exchange.hostStep bincode act = some next) :
    next.Inv bincode := by
  cases act with
  | acceptBi =>
      simp only [Exchange.hostStep] at taken
      split at taken <;> cases taken
      rename_i here
      exact ⟨inv.sends.of_kept rfl rfl rfl rfl, inv.receives.acceptBi here.1, inv.agrees⟩
  | acceptUni =>
      simp only [Exchange.hostStep] at taken
      split at taken <;> cases taken
      rename_i here
      exact ⟨inv.sends.of_kept rfl rfl rfl rfl, inv.receives.acceptUni here.1 here.2, inv.agrees⟩
  | read count =>
      simp only [Exchange.hostStep] at taken
      split at taken
      · rename_i buf at_
        rcases Option.bind_eq_some_iff.mp taken with ⟨stream, found, rest⟩
        split at rest
        · rename_i fits
          split at rest <;> cases rest
          exact ⟨inv.sends.of_kept rfl rfl rfl (contents_kept found rfl rfl),
            inv.receives.read at_ found fits.2.2, inv.agrees⟩
        · cases rest
      · cases taken
  | readEnd =>
      simp only [Exchange.hostStep] at taken
      split at taken
      · rename_i buf at_
        rcases Option.bind_eq_some_iff.mp taken with ⟨stream, found, rest⟩
        split at rest
        · rename_i finished
          cases rest
          exact inv.receive at_ found finished
        · cases rest
      · cases taken
  | fails =>
      simp only [Exchange.hostStep] at taken
      split at taken
      · cases taken
      · rcases Option.map_eq_some_iff.mp taken with ⟨stream, found, same⟩
        subst same
        exact ⟨inv.sends.of_kept rfl rfl rfl (contents_kept found rfl rfl),
          inv.receives.returns rfl rfl rfl (collected_kept found rfl), inv.agrees⟩
      · cases taken
        exact ⟨inv.sends.of_kept rfl rfl rfl rfl, inv.receives.returns rfl rfl rfl rfl, inv.agrees⟩
  | sessionEnds =>
      simp only [Exchange.hostStep] at taken
      split at taken
      · rename_i addr at_
        cases taken
        refine ⟨inv.sends.of_kept rfl rfl rfl rfl, ?_, inv.agrees⟩
        exact
          { known := inv.receives.known
            unread := inv.receives.unread
            idle := fun _ => inv.receives.serving addr at_
            serving := fun _ => Handler.noConfusion
            behind := Handler.noConfusion
            reading := fun _ => Handler.noConfusion }
      · cases taken

/-- The network changes what is there for the host, and none of the contents. -/
theorem Inv.of_network {bincode : Bincode} {exchange : Exchange} {index : Nat}
    {before after : Stream} (inv : exchange.Inv bincode)
    (found : exchange.controls[index]? = some before) (accepted : after.accepted = before.accepted)
    (ending : after.ending = before.ending) (consumed : after.consumed = before.consumed) :
    (exchange.setControl index after).Inv bincode where
  sends := inv.sends.of_kept rfl rfl rfl (contents_kept found accepted ending)
  receives := inv.receives.of_kept rfl rfl rfl inv.receives.known (collected_kept found consumed)
  agrees := inv.agrees

/-- The listener opens streams and drops send halves; what the host has collected
stays, and so do the streams that are open already. -/
theorem listenerStep_frame {protocol : TunnelProtocol} {exchange next : Exchange}
    {act : ListenerAct} (taken : exchange.listenerStep protocol act = some next) :
    next.handler = exchange.handler ∧ next.accepted = exchange.accepted ∧
      next.received = exchange.received ∧ next.knownUni = exchange.knownUni ∧
      next.collected = exchange.collected ∧ next.registered = exchange.registered ∧
      ∃ more, next.opened = exchange.opened ++ more := by
  rcases Option.bind_eq_some_iff.mp taken with ⟨client, _, rest⟩
  simp only at rest
  split at rest
  · cases rest
    exact ⟨rfl, rfl, rfl, rfl, rfl, rfl, _, rfl⟩
  · split at rest
    · rcases Option.map_eq_some_iff.mp rest with ⟨stream, found, same⟩
      subst same
      exact ⟨rfl, rfl, rfl, rfl, collected_kept found (stream.dropSend_consumed _), rfl, [],
        (List.append_nil _).symm⟩
    · cases rest
  · split at rest
    · split at rest <;> cases rest
      exact ⟨rfl, rfl, rfl, rfl, rfl, rfl, [], (List.append_nil _).symm⟩
    · rcases Option.bind_eq_some_iff.mp rest with ⟨stream, found, cut⟩
      split at cut <;> cases cut
      exact ⟨rfl, rfl, rfl, rfl, collected_kept found (stream.dropSend_consumed _), rfl, [],
        (List.append_nil _).symm⟩
  · cases rest
    exact ⟨rfl, rfl, rfl, rfl, rfl, rfl, [], (List.append_nil _).symm⟩

theorem Inv.listenerStep {bincode : Bincode} {protocol : TunnelProtocol}
    {exchange next : Exchange} {act : ListenerAct} (inv : exchange.Inv bincode)
    (inverts : ∀ addr, act = .incoming addr → bincode.Inverts addr)
    (taken : exchange.listenerStep protocol act = some next) : next.Inv bincode := by
  rcases listenerStep_frame taken with
    ⟨handler, accepted, received, known, collected, registered, more, opened⟩
  refine ⟨inv.sends.listenerStep inverts taken,
    inv.receives.of_kept handler accepted received (known ▸ inv.receives.known) collected, ?_⟩
  intro entry listed
  rw [registered] at listed
  rw [opened]
  exact getElem?_append_of_found (inv.agrees entry listed) more

/-- One step keeps the invariant, if the codec inverts the address that a step of
the listener brings in. -/
theorem Inv.step {bincode : Bincode} {protocol : TunnelProtocol} {exchange next : Exchange}
    {event : ExchangeEvent} (inv : exchange.Inv bincode)
    (inverts : ∀ addr, event = .listener (.incoming addr) → bincode.Inverts addr)
    (taken : exchange.step bincode protocol event = some next) : next.Inv bincode := by
  cases event with
  | listener act => exact inv.listenerStep (fun addr same => inverts addr (congrArg _ same)) taken
  | host act => exact inv.hostStep taken
  | uniOpened =>
      simp only [Exchange.step] at taken
      split at taken
      · rename_i addr at_
        split at taken <;> cases taken
        rename_i ready
        exact ⟨inv.sends.uniOpened at_ ready.1, inv.receives.uniOpened _, inv.agrees⟩
      · cases taken
  | writes count =>
      simp only [Exchange.step] at taken
      split at taken
      · rename_i addr rest at_ inside
        split at taken
        · rcases Option.map_eq_some_iff.mp taken with ⟨stream, found, same⟩
          subst same
          refine ⟨inv.sends.writes at_ inside found count, ?_, inv.agrees⟩
          exact inv.receives.of_kept rfl rfl rfl inv.receives.known
            (collected_kept found (stream.write_consumed _))
        · cases taken
      · cases taken
  | announceBi =>
      simp only [Exchange.step] at taken
      split at taken <;> cases taken
      exact ⟨inv.sends.of_kept rfl rfl rfl rfl,
        inv.receives.of_kept rfl rfl rfl inv.receives.known rfl, inv.agrees⟩
  | announceUni =>
      simp only [Exchange.step] at taken
      split at taken <;> cases taken
      rename_i more
      refine ⟨inv.sends.of_kept rfl rfl rfl rfl, ?_, inv.agrees⟩
      refine inv.receives.of_kept rfl rfl rfl ?_ rfl
      rw [collected_length]
      exact more
  | deliver control count =>
      rcases Option.map_eq_some_iff.mp taken with ⟨stream, found, same⟩
      subst same
      exact inv.of_network found rfl rfl rfl
  | deliverEnd control =>
      rcases Option.map_eq_some_iff.mp taken with ⟨stream, found, same⟩
      subst same
      exact inv.of_network found rfl rfl rfl
  | sendStop | dropStop | clientLoses | hostLoses =>
      cases taken
      exact ⟨inv.sends.of_kept rfl rfl rfl rfl,
        inv.receives.of_kept rfl rfl rfl inv.receives.known rfl, inv.agrees⟩

/-- Every session is registered for the application that its bidirectional stream
was opened for, in whatever order the two kinds of stream become known, however the
requests are cut into reads, and wherever either side gives up.  The codec has to
invert the addresses of the applications that turn up. -/
theorem sessions_agree (bincode : Bincode) (protocol : TunnelProtocol)
    (events : List ExchangeEvent)
    (inverts : ∀ addr, ExchangeEvent.listener (.incoming addr) ∈ events → bincode.Inverts addr) :
    (machine bincode protocol).EveryState Agrees events started := by
  have along : (machine bincode protocol).EveryState (Inv bincode) events started := by
    apply Machine.everyState_of_steps _ (inv_started bincode)
    intro event listed exchange next inv taken
    exact inv.step (fun addr same => inverts addr (same ▸ listed)) taken
  exact along.imp (fun _ inv => inv.agrees)

/-- The standard configuration, as it acts on the requests for IPv4 applications: the
two variants, the octets, and the port in one byte or in three. -/
def ipv4Bincode : Bincode where
  encodeToVec
    | .connReq (.v4 ip port) =>
        let octets := [24, 16, 8, 0].map fun start => UInt8.ofBitVec (ip.extractLsb' start 8)
        0 :: 0 :: octets ++
          if port < 251 then [port.toUInt8] else [251, port.toUInt8, (port >>> 8).toUInt8]
    | .connReq (.v6 ..) => []
  decodeFromSlice
    | 0 :: 0 :: a :: b :: c :: d :: port =>
        let ip : BitVec 32 := a.toBitVec ++ b.toBitVec ++ c.toBitVec ++ d.toBitVec
        match port with
        | 251 :: low :: high :: _ => some (.connReq (.v4 ip (high.toUInt16 <<< 8 ||| low.toUInt16)))
        | low :: _ => if low < 251 then some (.connReq (.v4 ip low.toUInt16)) else none
        | [] => none
    | _ => none

/-- Two applications, one after the other.  The first request overtakes its
bidirectional stream and is read in two pieces; the second comes behind it. -/
def twoRequests : List ExchangeEvent :=
  let first : SocketAddr := .v4 0x7f000001 5000
  let second : SocketAddr := .v4 0x7f000001 80
  [.listener .bound, .listener (.incoming first), .listener .opened, .uniOpened, .writes 9,
    .announceUni, .deliver 0 4, .listener .sent, .announceBi, .host .acceptBi, .host .acceptUni,
    .host (.read 4), .deliver 0 5, .deliverEnd 0, .host (.read 5), .host .readEnd,
    .listener (.forwarderEnds .up .finished), .listener (.forwarderEnds .down .finished),
    .listener .join, .host .sessionEnds, .listener (.incoming second), .listener .opened,
    .announceBi, .host .acceptBi, .uniOpened, .announceUni, .host .acceptUni, .writes 5, .writes 2,
    .deliver 1 7, .host (.read 7), .listener .sent, .deliverEnd 1, .host .readEnd]

theorem sessions_agree_twoRequests :
    ((machine ipv4Bincode .tcp).run twoRequests started).map registered =
        some [(0, ⟨.v4 0x7f000001 5000, .v4 0 0⟩), (1, ⟨.v4 0x7f000001 80, .v4 0 0⟩)] ∧
      (machine ipv4Bincode .tcp).EveryState Agrees twoRequests started := by
  refine ⟨by decide +kernel, sessions_agree ipv4Bincode .tcp twoRequests ?_⟩
  intro addr listed
  simp only [twoRequests, List.mem_cons, ExchangeEvent.listener.injEq, reduceCtorEq,
    ListenerAct.incoming.injEq, List.not_mem_nil, false_or, or_false] at listed
  rcases listed with rfl | rfl <;> decide

end Exchange

end Pair
end Lantun

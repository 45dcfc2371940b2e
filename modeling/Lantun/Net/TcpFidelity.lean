import Lantun.Net.Session

namespace Lantun
namespace Net

/-!
# TCP sessions deliver a leading part of what was sent

For a byte socket the carried bytes are the received bytes themselves, so the
invariant of a direction becomes the statement a user of the tunnel cares
about.  Timeouts, stops, read errors and panicking writes may cut a direction
short at any point, but never in the middle of what has been written.
-/

namespace Sock

/-- Nothing is cut off a single byte. -/
theorem tcp_clipped (bytes : List UInt8) : bytes.flatMap tcp.clipped = bytes := by
  have single : tcp.clipped = fun byte => [byte] := by
    funext byte
    rfl
  rw [single, flatMap_singleton]

end Sock

namespace Session

theorem tcp_written (pipe : Pipe UInt8) : pipe.written Bi.tcp.sock = pipe.out :=
  Sock.flatMap_singleton pipe.out

theorem tcp_carried (pipe : Pipe UInt8) : pipe.carried Bi.tcp.sock = pipe.log.take pipe.got :=
  Sock.tcp_clipped _

/-- In every reachable state of a TCP session and in both directions, what was
written at the far end is a leading part of what the application sent, and it
is all that was ever received from the application's socket once the receiving
forwarder has ended on `None`. -/
theorem tcp_delivers {session : Session UInt8} (reached : (machine Bi.tcp).Reachable session)
    (side : Side) :
    (session.pipe side).out <+: (session.pipe side).log ∧
      ((session.pipe side).down.pc = .done .closed →
        (session.pipe side).out = (session.pipe side).log.take (session.pipe side).got) := by
  have inv := (inductive_inv Bi.tcp).of_reachable reached side
  constructor
  · have leading := inv.written_isPrefix_carried
    rw [tcp_written, tcp_carried] at leading
    exact leading.trans (List.take_prefix _ _)
  · intro closed
    have all := inv.written_of_closed closed
    rwa [tcp_written, tcp_carried] at all

/-- Two bytes cross a session, then the application closes and the host's
forwarder reads the end of the stream. -/
def closingRun : List (Event UInt8) :=
  [.send .client 7, .send .client 8] ++ enterSelect .client .up ++
    [.task .client .up (.read 2), .task .client .up (.write 1), .task .client .up (.write 1),
      .deliver .client 2] ++
    enterSelect .client .down ++
    [.task .client .down (.read 2), .task .client .down (.write 2), .close .client] ++
    enterSelect .client .up ++ [.task .client .up (.read 0), .deliverEnd .client] ++
    enterSelect .client .down ++ [.task .client .down (.read 0)]

theorem tcp_delivers_closingRun :
    ∃ session, (machine Bi.tcp).run closingRun fresh = some session ∧
      (session.pipe .client).out <+: (session.pipe .client).log ∧
      (session.pipe .client).out = (session.pipe .client).log.take 2 := by
  have ends : ((machine Bi.tcp).run closingRun fresh).map
      (fun session => ((session.pipe .client).down.pc, (session.pipe .client).got)) =
        some (.done .closed, 2) := by decide
  obtain ⟨session, ran, point⟩ := Option.map_eq_some_iff.mp ends
  obtain ⟨closed, got⟩ := Prod.mk.inj point
  obtain ⟨leading, all⟩ := tcp_delivers ⟨fresh, closingRun, fresh_starts, ran⟩ .client
  exact ⟨session, ran, leading, got ▸ all closed⟩

end Session

end Net
end Lantun

import NgxServer.ByteStream

/-!
# The receive window

`recv` is called with `precvbuf` and `irecvlen`, which four functions move
separately. Whatever they have done, the window of a client ends where the
header or the package ends, and it is never empty.
-/

namespace NgxServer.RecvWindow

open NgxServer.Comm NgxServer.State NgxServer.ConnPool NgxServer.TimerQueue NgxServer.Socket
open NgxServer.Request NgxServer.Accept NgxServer.Logic NgxServer.System NgxServer.Frames
open NgxServer.PoolRefinement NgxServer.Occupancy NgxServer.RecvOwnership NgxServer.Reassembly
open NgxServer.ByteStream
open BlockHeap (null)

set_option autoImplicit false

def InBody (recv : RecvPart) : Prop := recv.curStat = .bdInit ∨ recv.curStat = .bdRecving

/-- The window ends with the eight bytes of a header, in `dataHeadInfo`. -/
structure HeadWindow (recv : RecvPart) (offset : Nat) : Prop where
  starts : recv.precvbuf = .head offset
  ends : offset + recv.irecvlen = 8
  room : 8 ≤ dataBufsize
  size : recv.dataHeadInfo.length = dataBufsize

structure BodyWindow (server : Server) (c : ConnId) (offset : Nat) (msg : MsgBuf) : Prop where
  allocated : (server.conns c).recv.precvMemPointer ≠ null
  block : server.rheap.block (server.conns c).recv.precvMemPointer = some msg
  starts : (server.conns c).recv.precvbuf = .mem (server.conns c).recv.precvMemPointer offset
  ends : offset + (server.conns c).recv.irecvlen = lenMsgHeader + pkgLen msg.pkg
  size : msg.pkg.length = pkgLen msg.pkg
  low : 9 ≤ pkgLen msg.pkg
  high : pkgLen msg.pkg ≤ 29000

structure InWindow (server : Server) (c : ConnId) : Prop where
  header : InHeader (server.conns c).recv → ∃ offset, HeadWindow (server.conns c).recv offset
  body : InBody (server.conns c).recv → ∃ offset msg, BodyWindow server c offset msg
  waits : 1 ≤ (server.conns c).recv.irecvlen

section Windows

variable {server : Server} {c : ConnId} {rest : List Byte}

theorem not_both {recv : RecvPart} (header : InHeader recv) (body : InBody recv) : False := by
  rcases header with init | receiving <;> rcases body with start | more
  · cases init.symm.trans start
  · cases init.symm.trans more
  · cases receiving.symm.trans start
  · cases receiving.symm.trans more

theorem head_in_window (size : HeadSize server c) (head : HoldsHead (server.conns c).recv rest) :
    InWindow server c := by
  have inHeader : InHeader (server.conns c).recv := head.states.imp And.left id
  refine ⟨fun _ => ⟨rest.length, head.window, head.missing, by decide, size⟩, fun body => ?_,
    head.waits⟩
  exact (not_both inHeader body).elim

theorem body_in_window (wellFormed : BlockHeap.WellFormed server.rheap)
    (body : HoldsBody server c rest) : InWindow server c := by
  refine ⟨fun header => absurd header body.states, fun _ => ?_, body.waits⟩
  obtain ⟨pkg, live, size, known⟩ := body.buffer
  have header := body.header
  have missing := body.missing
  have waits := body.waits
  simp only [lenPkgHeader] at header
  have announced : pkgLen pkg = pkgLen rest := by
    rw [← known, pkg_len_take (by omega)]
  have allocated : (server.conns c).recv.precvMemPointer ≠ null := by
    intro isNull
    rw [isNull, BlockHeap.null_not_live wellFormed] at live
    cases live
  refine ⟨lenMsgHeader + rest.length, { hdr := stampNow server c, pkg := pkg }, allocated, live,
    body.window, ?_, ?_, ?_, ?_⟩
  · dsimp only
    omega
  · exact size.trans announced.symm
  · dsimp only
    omega
  · exact announced.trans_le body.bound

end Windows

/-- In every state that the server reaches, the window of every client is inside its buffer
and not empty, and what `recv` returns is not more than was asked for. -/
theorem recv_window_inside {cfg : Config} {server : Server} {c : ConnId}
    (reached : Reachable cfg Disciplined server) (live : server.ghost.occ c ≠ none) :
    InWindow server c ∧
      ∀ after revents bytes send ctlOk junk nowMs now,
        step cfg server (.event c revents (.data bytes) send ctlOk junk nowMs now) = some after →
        1 ≤ bytes.length ∧ bytes.length ≤ (server.conns c).recv.irecvlen := by
  obtain ⟨⟨-, sound⟩, receiving⟩ := reachable_receiving reached
  refine ⟨?_, fun after revents bytes send ctlOk junk nowMs now taken => ?_⟩
  · obtain ⟨rest, head | body⟩ := receiving.holds c live
    · exact head_in_window (receiving.sizes c) head
    · exact body_in_window sound.owned.exclusive.wellFormed body
  · cases stepped_of_step taken with
    | event _ _ _ _ _ _ _ _ handler reported possible =>
        simp only [RecvOutcome.possible, decide_eq_true_eq] at possible
        exact possible.2

/-- In the middle of a body. -/
theorem recv_window_inside_sample :
    ∃ server, InBody (server.conns 1).recv ∧ InWindow server 1 := by
  have seen : (run unflooded Disciplined [.epollInit (fun _ => true) 1000,
      .accept 0 [.ok 5] true true 1001, recvBytes [0, 10, 0, 5, 0, 0, 0, 0], recvBytes [1]]).map
        (fun server => decide (server.ghost.occ 1 = some 0 ∧
          (server.conns 1).recv.curStat = .bdRecving)) = some true := by
    decide
  obtain ⟨server, reached, shown⟩ := reachable_of_seen seen
  obtain ⟨serves, receives⟩ := of_decide_eq_true shown
  have inside := recv_window_inside reached (c := 1) (by simp [serves])
  exact ⟨server, Or.inr receives, inside.1⟩

end NgxServer.RecvWindow

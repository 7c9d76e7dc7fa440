import NgxServer.Crc32

/-!
# The stress test client

`FuncsendrecvData` sends one request and waits for a reply of the same length.
The loop at `lblsend` leaves in `sendlen` what its last call of `send` was
asked to send, and the loop at `lblrecv` compares every single result of
`recv` with it, while it asks for 4500 bytes wherever it is in its buffer. So
the reply is counted as it should be when it arrives in one piece, and only
then.
-/

namespace NgxServer.StressClient

open NgxServer.Comm NgxServer.Crc32

set_option autoImplicit false

def sizeofStructRegister : Nat := 100

def sizeofStructLogin : Nat := 96

def pqSize : Nat := 4500

def ibodylen (iRand : Nat) : Nat :=
  if iRand = 1 then sizeofStructRegister
  else if iRand = 2 then sizeofStructLogin
  else 0

def requestCode (iRand : Nat) : Nat := if iRand = 1 then 5 else if iRand = 2 then 6 else 0

def buildRequest (iRand : Nat) (fill : Nat → Byte) : List Byte :=
  let body := (List.range (ibodylen iRand)).map fill
  encodeHeader (lenPkgHeader + ibodylen iRand) (requestCode iRand)
    (if iRand ≠ 3 then getCrc body else 0) ++ body

/-- The loop at `lblsend`, on positive results of `send`: the bytes that are sent, and
`sendlen` when the loop is left. It is `none` while `send` has not returned yet. -/
def lblsend (pq : List Byte) : (pbuf sendlen : Nat) → List Nat → List Byte × Option Nat
  | _, _, [] => ([], none)
  | pbuf, sendlen, ret :: rets =>
      let bytes := (pq.drop pbuf).take ret
      if ret < sendlen then
        let (more, left) := lblsend pq (pbuf + ret) (sendlen - ret) rets
        (bytes ++ more, left)
      else (bytes, some sendlen)

/-- The calls of `recv` with their offset and length, the bytes received, and whether
`g_recvokcount` is incremented. -/
structure Receipt where
  asks : List (Nat × Nat)
  received : Nat
  recvok : Bool
  deriving DecidableEq, Repr

def lblrecv (sendlen : Nat) : (pbuf : Nat) → List Nat → Receipt
  | pbuf, [] => { asks := [(pbuf, 4500)], received := 0, recvok := false }
  | pbuf, ret :: rets =>
      if ret < sendlen then
        let later := lblrecv sendlen (pbuf + ret) rets
        { asks := (pbuf, 4500) :: later.asks
          received := ret + later.received
          recvok := later.recvok }
      else { asks := [(pbuf, 4500)], received := ret, recvok := true }

/-- `FuncsendrecvData` for one connection: the bytes sent, and what is received. -/
def funcsendrecvData (pq : List Byte) (sends recvs : List Nat) : List Byte × Receipt :=
  let (sent, left) := lblsend pq 0 pq.length sends
  (sent,
    match left with
    | none => { asks := [], received := 0, recvok := false }
    | some sendlen => lblrecv sendlen 0 recvs)

/-- What `send` and `recv` can return for a request of a length with a reply as long: they
return positive numbers, nothing is received before all is sent. -/
structure Possible (length : Nat) (sends recvs : List Nat) : Prop where
  sendPositive : ∀ ret ∈ sends, 0 < ret
  sendTotal : sends.sum ≤ length
  recvPositive : ∀ ret ∈ recvs, 0 < ret
  recvTotal : recvs.sum ≤ length
  ordered : sends.sum < length → recvs = []

/-- The request is sent once, the reply is counted when all of it has arrived, `recv` is not
called after that, and it is never asked to write outside `pq`. -/
structure Counts (pq : List Byte) (sends : List Nat) (outcome : List Byte × Receipt) : Prop where
  sent : outcome.1 = pq.take sends.sum
  counted : outcome.2.recvok = true ↔ outcome.2.received = pq.length
  stops : ∀ ask ∈ outcome.2.asks, ask.1 < pq.length
  inside : ∀ ask ∈ outcome.2.asks, ask.1 + ask.2 ≤ pqSize

theorem build_request_length (iRand : Nat) (fill : Nat → Byte) :
    (buildRequest iRand fill).length = lenPkgHeader + ibodylen iRand := by
  simp [buildRequest]

/-- Whatever `send` takes at a time, the request goes out once, from the front. -/
theorem lblsend_spec (pq : List Byte) (pbuf sendlen : Nat) {sends : List Nat}
    (positive : ∀ ret ∈ sends, 0 < ret) (total : sends.sum ≤ sendlen) (asks : 0 < sendlen) :
    (lblsend pq pbuf sendlen sends).1 = (pq.drop pbuf).take sends.sum ∧
      (sends.sum < sendlen ∧ (lblsend pq pbuf sendlen sends).2 = none ∨
        sends.sum = sendlen ∧ ∃ left, 0 < left ∧ left ≤ sendlen ∧
          (lblsend pq pbuf sendlen sends).2 = some left) := by
  induction sends generalizing pbuf sendlen with
  | nil => exact ⟨(List.take_zero ..).symm, Or.inl ⟨asks, rfl⟩⟩
  | cons ret rets ih =>
      rw [List.sum_cons] at total ⊢
      rw [lblsend]
      dsimp only
      split
      case isTrue short =>
        have later : ∀ more ∈ rets, 0 < more := fun more listed =>
          positive more (List.mem_cons_of_mem ret listed)
        obtain ⟨sent, ends⟩ := ih (pbuf + ret) (sendlen - ret) later (by omega) (by omega)
        constructor
        · dsimp only
          rw [sent, ← List.drop_drop, List.take_add]
        · rcases ends with ⟨fewer, waits⟩ | ⟨all, left, some, most, found⟩
          · exact Or.inl ⟨by omega, waits⟩
          · exact Or.inr ⟨by omega, left, some, by omega, found⟩
      case isFalse whole =>
        have none : rets.sum = 0 := by omega
        rw [none, Nat.add_zero]
        exact ⟨rfl, Or.inr ⟨by omega, sendlen, asks, le_rfl, rfl⟩⟩

section Replies

variable {pq : List Byte} {sends : List Nat} {left first : Nat} {rest : List Nat}

/-- As long as the request is not out, there is nothing to count. -/
theorem unsent_counts (size : 0 < pq.length) :
    Counts pq sends (pq.take sends.sum, { asks := [], received := 0, recvok := false }) := by
  refine ⟨rfl, ?_, ?_, ?_⟩
  · simp [size.ne]
  · simp
  · simp

theorem unanswered_counts (size : 0 < pq.length) :
    Counts pq sends (pq.take sends.sum, lblrecv left 0 []) := by
  refine ⟨rfl, ?_, ?_, ?_⟩
  · simp [lblrecv, size.ne]
  · simp [lblrecv, size]
  · simp [lblrecv, pqSize]

/-- After a first result below `left`, the second call of `recv` asks for 4500 bytes behind it. -/
theorem second_ask (short : first < left) :
    (first, 4500) ∈ (lblrecv left 0 (first :: rest)).asks := by
  rw [lblrecv, if_pos short, Nat.zero_add]
  cases rest with
  | nil => simp [lblrecv]
  | cons next more =>
      unfold lblrecv
      split <;> simp

theorem answered_counts_iff (size : 0 < pq.length) (most : left ≤ pq.length)
    (positive : 0 < first) :
    Counts pq sends (pq.take sends.sum, lblrecv left 0 (first :: rest)) ↔ first = pq.length := by
  constructor
  · intro counts
    by_cases short : first < left
    · have outside := counts.inside (first, 4500) (second_ask short)
      simp only [pqSize] at outside
      omega
    · have counted := counts.counted
      simp only [lblrecv, if_neg short] at counted
      exact counted.mp trivial
  · intro same
    have enough : ¬ first < left := by omega
    have receipt : lblrecv left 0 (first :: rest) =
        { asks := [(0, 4500)], received := first, recvok := true } := by
      rw [lblrecv, if_neg enough]
    rw [receipt]
    refine ⟨rfl, ⟨fun _ => same, fun _ => rfl⟩, ?_, ?_⟩
    · simp [size]
    · simp [pqSize]

end Replies

/-- Only a reply that the first call of `recv` returns as a whole is counted as it should
be: a shorter first result is either taken for the reply or makes the next call ask for more
than there is room for. -/
theorem stress_client_counts_iff (iRand : Nat) (fill : Nat → Byte) {sends recvs : List Nat}
    (possible : Possible (buildRequest iRand fill).length sends recvs) :
    Counts (buildRequest iRand fill) sends
        (funcsendrecvData (buildRequest iRand fill) sends recvs) ↔
      ∀ first ∈ recvs.head?, first = (buildRequest iRand fill).length := by
  have size : 0 < (buildRequest iRand fill).length := by
    rw [build_request_length]
    exact Nat.lt_add_right _ (by decide)
  generalize buildRequest iRand fill = pq at possible size ⊢
  obtain ⟨sent, ends⟩ := lblsend_spec pq 0 pq.length possible.sendPositive possible.sendTotal size
  rw [List.drop_zero] at sent
  rcases ends with ⟨fewer, waits⟩ | ⟨all, left, some, most, found⟩
  · have outcome : funcsendrecvData pq sends recvs =
        (pq.take sends.sum, { asks := [], received := 0, recvok := false }) := by
      simp only [funcsendrecvData, sent, waits]
    rw [outcome, possible.ordered fewer]
    refine ⟨fun _ first starts => ?_, fun _ => unsent_counts size⟩
    cases starts
  · have outcome : funcsendrecvData pq sends recvs =
        (pq.take sends.sum, lblrecv left 0 recvs) := by
      simp only [funcsendrecvData, sent, found]
    rw [outcome]
    cases recvs with
    | nil =>
        refine ⟨fun _ first starts => ?_, fun _ => unanswered_counts size⟩
        cases starts
    | cons first rest =>
        have positive := possible.recvPositive first (List.mem_cons_self ..)
        rw [answered_counts_iff size most positive, List.head?_cons]
        constructor
        · intro whole other same
          cases same
          exact whole
        · exact fun whole => whole first rfl

/-- A reply to a ping in two pieces: when the request was sent at once, `recv` is asked to
write outside `pq`; when it was sent in two pieces, the first piece of the reply is counted as all
of it. -/
theorem stress_client_miscounts :
    Possible (buildRequest 3 fun _ => 0).length [8] [3] ∧
      (funcsendrecvData (buildRequest 3 fun _ => 0) [8] [3]).2.asks = [(0, 4500), (3, 4500)] ∧
      ¬ Counts (buildRequest 3 fun _ => 0) [8]
        (funcsendrecvData (buildRequest 3 fun _ => 0) [8] [3]) ∧
      Possible (buildRequest 3 fun _ => 0).length [5, 3] [3] ∧
      (funcsendrecvData (buildRequest 3 fun _ => 0) [5, 3] [3]).2 =
        { asks := [(0, 4500)], received := 3, recvok := true } ∧
      ¬ Counts (buildRequest 3 fun _ => 0) [5, 3]
        (funcsendrecvData (buildRequest 3 fun _ => 0) [5, 3] [3]) := by
  refine ⟨⟨by decide, by decide, by decide, by decide, by decide⟩, by decide, ?_,
    ⟨by decide, by decide, by decide, by decide, by decide⟩, by decide, ?_⟩
  · intro counts
    have second := counts.inside (3, 4500) (by decide)
    exact absurd second (by decide)
  · intro counts
    have early := counts.counted.mp (by decide)
    exact absurd early (by decide)

theorem stress_client_counts_sample :
    Counts (buildRequest 1 fun _ => 7) [60, 48]
      (funcsendrecvData (buildRequest 1 fun _ => 7) [60, 48] [108]) := by
  have length : (buildRequest 1 fun _ => 7).length = 108 := build_request_length ..
  have possible : Possible (buildRequest 1 fun _ => 7).length [60, 48] [108] := by
    rw [length]
    exact ⟨by decide, by decide, by decide, by decide, by decide⟩
  apply (stress_client_counts_iff 1 (fun _ => 7) possible).mpr
  intro first same
  cases same
  exact length.symm

end NgxServer.StressClient

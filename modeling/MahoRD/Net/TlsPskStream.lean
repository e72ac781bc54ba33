/-
MahoRD/Net/TlsPskStream.lean

The sending side of a TLS stream (`TlsPskStream` in `maho-net/src/tls_psk.rs`):
a bounded queue of frames, written piece by piece as the socket takes them.

A frame stays in the queue until all of its plaintext has been acknowledged and
one more step has flushed the transport.  What `SSL_write` and the flush answer
is up to the environment; a count is at most the length of the slice, as in the
documentation of `SSL_write_ex`, so the type of the answer depends on the slice.

A `Session` is the stream together with what has happened at its two ends: the
payloads it admitted and the calls it made on the TLS connection, in order.
-/
import MahoRD.Lib.History
import MahoRD.Lib.Machine
import MahoRD.Proto.Framing
import Mathlib.Data.List.Chain

namespace MahoRD
namespace TlsPskStream

/-- The kinds of an I/O error that the sender tells apart or makes itself. -/
inductive ErrorKind
  | wouldBlock | interrupted | writeZero | brokenPipe | connectionReset | other
  deriving DecidableEq

inductive Error
  | io (kind : ErrorKind) | frame (error : CodecError)

/-- `MAX_OUTBOUND_FRAMES`. -/
def maxOutboundFrames : ℕ := 64

/-- `MAX_OUTBOUND_BYTES`. -/
def maxOutboundBytes : ℕ := maxTcpFrameSize + 4

/-- `TLS_WRITE_CHUNK`. -/
def tlsWriteChunk : ℕ := 16 * 1024

/-- What `SSL_write` may answer for a slice of `n` bytes. -/
inductive SslWrite (n : ℕ)
  | ok (count : Fin (n + 1))
  | wantRead
  | wantWrite
  | error (kind : ErrorKind)

/-- The answers of the TLS connection in one step. -/
structure Ssl where
  sslWrite : (slice : List UInt8) → SslWrite slice.length
  flush : Except ErrorKind Unit

/-- A call on the TLS connection, with its answer. -/
inductive SslCall
  | sslWrite (slice : List UInt8) (answer : SslWrite slice.length)
  | flush (answer : Except ErrorKind Unit)

structure PendingFrame where
  bytes : List UInt8
  offset : ℕ
  offset_le : offset ≤ bytes.length

/-- `&frame.bytes[frame.offset..end]`. -/
def PendingFrame.slice (frame : PendingFrame) : List UInt8 :=
  let stop := min (frame.offset + tlsWriteChunk) frame.bytes.length
  (frame.bytes.take stop).drop frame.offset

theorem PendingFrame.offset_add_le (frame : PendingFrame) (count : Fin (frame.slice.length + 1)) :
    frame.offset + count ≤ frame.bytes.length := by
  have hcount : (count : ℕ) ≤ frame.slice.length := Nat.lt_succ_iff.mp count.isLt
  have := frame.offset_le
  simp only [slice, List.length_drop, List.length_take] at hcount
  omega

/-- `frame.offset += count`. -/
def PendingFrame.advance (frame : PendingFrame) (count : Fin (frame.slice.length + 1)) :
    PendingFrame :=
  ⟨frame.bytes, frame.offset + count, frame.offset_add_le count⟩

end TlsPskStream

/-- The fields of the sending side. -/
structure TlsPskStream where
  outbound : List TlsPskStream.PendingFrame
  outboundBytes : ℕ
  writeNeedsRead : Bool
  writeFailed : Bool

namespace TlsPskStream

def new : TlsPskStream := ⟨[], 0, false, false⟩

def queueFrame (s : TlsPskStream) (payload : List UInt8) : Except Error Unit × TlsPskStream :=
  if s.writeFailed then (.error (.io .brokenPipe), s)
  else if payload.isEmpty ∨ payload.length > maxTcpFrameSize then
    (.error (.frame (.invalidFrameLength
      (if payload.length < UInt32.size then UInt32.ofNat payload.length
        else UInt32.ofNat (UInt32.size - 1)))), s)
  else
    let frameLength := payload.length + 4
    if s.outbound.length = maxOutboundFrames ∨ frameLength > maxOutboundBytes - s.outboundBytes then
      (.error (.io .wouldBlock), s)
    else
      match TcpFrameWriter.encode payload with
      | .error e => (.error (.frame e), s)
      | .ok frame =>
        (.ok (), { s with
          outboundBytes := s.outboundBytes + frameLength
          outbound := s.outbound ++ [⟨frame, 0, Nat.zero_le _⟩] })

/-- The end of a step: an interrupted call counts as done, one that would block is left to be
retried, any other error cancels the queue for good. -/
def settle (s : TlsPskStream) : Except ErrorKind Unit → Except Error Unit × TlsPskStream
  | .error .interrupted => (.ok (), s)
  | .error .wouldBlock => (.error (.io .wouldBlock), s)
  | .error kind =>
    (.error (.io kind), { s with writeFailed := true, outbound := [], outboundBytes := 0 })
  | .ok () => (.ok (), s)

/-- The reply, the stream after the step, and the calls made. -/
def writeFrameStep (s : TlsPskStream) (ssl : Ssl) :
    Except Error Unit × TlsPskStream × List SslCall :=
  if s.writeFailed then (.error (.io .brokenPipe), s, [])
  else
    match s.outbound with
    | [] => (.ok (), s, [])
    | frame :: rest =>
      let s := { s with writeNeedsRead := false }
      if frame.offset = frame.bytes.length then
        let popped :=
          { s with outbound := rest, outboundBytes := s.outboundBytes - frame.bytes.length }
        let (r, s) := match ssl.flush with
          | .ok () => popped.settle (.ok ())
          | .error kind => s.settle (.error kind)
        (r, s, [.flush ssl.flush])
      else
        let (r, s) := match ssl.sslWrite frame.slice with
          | .ok count =>
            if (count : ℕ) = 0 then s.settle (.error .writeZero)
            else { s with outbound := frame.advance count :: rest }.settle (.ok ())
          | .wantRead => { s with writeNeedsRead := true }.settle (.error .wouldBlock)
          | .wantWrite => { s with writeNeedsRead := false }.settle (.error .wouldBlock)
          | .error kind => s.settle (.error kind)
        (r, s, [.sslWrite frame.slice (ssl.sslWrite frame.slice)])

/-! ### What a step can do -/

namespace SslCall

/-- The plaintext that the call has acknowledged. -/
def acknowledged : SslCall → List UInt8
  | sslWrite slice (.ok count) => slice.take count
  | _ => []

/-- The call has ended the sending for good. -/
def Terminal : SslCall → Prop
  | sslWrite _ (.ok count) => (count : ℕ) = 0
  | sslWrite _ (.error kind) | flush (.error kind) => kind ≠ .interrupted ∧ kind ≠ .wouldBlock
  | _ => False

/-- The call that the first frame of the queue is due for. -/
def Due (frame : PendingFrame) : SslCall → Prop
  | sslWrite slice _ => frame.offset ≠ frame.bytes.length ∧ slice = frame.slice
  | flush _ => frame.offset = frame.bytes.length

end SslCall

/-- What one step does to the stream, and the calls it makes. -/
inductive Move (s : TlsPskStream) : TlsPskStream → List SslCall → Prop
  | idle (hidle : s.writeFailed = true ∨ s.outbound = []) : Move s s []
  | popped {frame rest} (hlive : s.writeFailed = false) (hfront : s.outbound = frame :: rest)
      (hsent : frame.offset = frame.bytes.length) :
      Move s
        { s with
          outbound := rest
          outboundBytes := s.outboundBytes - frame.bytes.length
          writeNeedsRead := false }
        [.flush (.ok ())]
  | advanced {frame : PendingFrame} {rest} {count : Fin (frame.slice.length + 1)}
      (hlive : s.writeFailed = false) (hfront : s.outbound = frame :: rest) (hunsent : frame.offset ≠ frame.bytes.length)
      (hcount : (count : ℕ) ≠ 0) :
      Move s { s with outbound := frame.advance count :: rest, writeNeedsRead := false }
        [.sslWrite frame.slice (.ok count)]
  | kept {frame rest call needsRead} (hlive : s.writeFailed = false)
      (hfront : s.outbound = frame :: rest) (hdue : call.Due frame)
      (hopen : ¬ call.Terminal) (hnothing : call.acknowledged = []) :
      Move s { s with writeNeedsRead := needsRead } [call]
  | cancelled {frame rest call} (hlive : s.writeFailed = false)
      (hfront : s.outbound = frame :: rest) (hdue : call.Due frame) (hterminal : call.Terminal) :
      Move s ⟨[], 0, false, true⟩ [call]

theorem settle_terminal (s : TlsPskStream) {kind : ErrorKind}
    (h : kind ≠ .interrupted ∧ kind ≠ .wouldBlock) :
    s.settle (.error kind) =
      (.error (.io kind),
        { s with writeFailed := true, outbound := [], outboundBytes := 0 }) := by
  cases kind with
  | interrupted => exact (h.1 rfl).elim
  | wouldBlock => exact (h.2 rfl).elim
  | _ => rfl

theorem settle_writeZero (s : TlsPskStream) :
    s.settle (.error .writeZero) =
      (.error (.io .writeZero),
        { s with writeFailed := true, outbound := [], outboundBytes := 0 }) := rfl

theorem settle_open (s : TlsPskStream) {kind : ErrorKind}
    (h : ¬ (kind ≠ .interrupted ∧ kind ≠ .wouldBlock)) : (s.settle (.error kind)).2 = s := by
  cases kind with
  | interrupted | wouldBlock => rfl
  | _ => exact (h ⟨nofun, nofun⟩).elim

theorem writeFrameStep_move (s : TlsPskStream) (ssl : Ssl) :
    Move s (s.writeFrameStep ssl).2.1 (s.writeFrameStep ssl).2.2 := by
  unfold writeFrameStep
  split
  next hfailed => exact .idle (.inl hfailed)
  next hlive =>
  replace hlive : s.writeFailed = false := by simpa using hlive
  split
  next hempty => exact .idle (.inr hempty)
  next frame rest hfront =>
  dsimp only
  split
  next hsent =>
    -- the transport is flushed
    rcases hflush : ssl.flush with kind | ⟨⟩
    · by_cases hkind : kind ≠ .interrupted ∧ kind ≠ .wouldBlock
      · simp only [settle_terminal _ hkind]
        exact .cancelled hlive hfront hsent hkind
      · simp only [settle_open _ hkind]
        exact .kept hlive hfront hsent hkind rfl
    · exact .popped hlive hfront hsent
  next hunsent =>
    rcases hwrite : ssl.sslWrite frame.slice with count | - | - | kind
    · by_cases hcount : (count : ℕ) = 0
      · simp only [if_pos hcount, settle_writeZero]
        exact .cancelled hlive hfront ⟨hunsent, rfl⟩ hcount
      · simp only [if_neg hcount]
        exact .advanced hlive hfront hunsent hcount
    · exact .kept hlive hfront ⟨hunsent, rfl⟩ not_false rfl
    · exact .kept hlive hfront ⟨hunsent, rfl⟩ not_false rfl
    · by_cases hkind : kind ≠ .interrupted ∧ kind ≠ .wouldBlock
      · simp only [settle_terminal _ hkind]
        exact .cancelled hlive hfront ⟨hunsent, rfl⟩ hkind
      · simp only [settle_open _ hkind]
        exact .kept hlive hfront ⟨hunsent, rfl⟩ hkind rfl

/-! ### Sessions -/

inductive Event
  | admitted (payload : List UInt8)
  | ssl (call : SslCall)

structure Session where
  stream : TlsPskStream
  history : List Event

inductive Call
  | queueFrame (payload : List UInt8)
  | writeFrameStep (ssl : Ssl)

namespace Session

def new : Session := ⟨TlsPskStream.new, []⟩

def step (x : Session) : Call → Option Session
  | .queueFrame payload =>
    match x.stream.queueFrame payload with
    | (.ok (), s) => some ⟨s, x.history ++ [.admitted payload]⟩
    | (.error _, s) => some ⟨s, x.history⟩
  | .writeFrameStep ssl =>
    let (_, s, calls) := x.stream.writeFrameStep ssl
    some ⟨s, x.history ++ calls.map .ssl⟩

end Session

/-- The frame of a payload. -/
def frameOf (payload : List UInt8) : List UInt8 := Bytes.toLE 4 payload.length ++ payload

def Event.admittedBytes : Event → List UInt8
  | .admitted payload => frameOf payload
  | .ssl _ => []

def Event.acknowledgedBytes : Event → List UInt8
  | .admitted _ => []
  | .ssl call => call.acknowledged

def Event.Terminal : Event → Prop
  | .admitted _ => False
  | .ssl call => call.Terminal

/-- The frames that were admitted, one behind the other. -/
def admittedBytes (history : List Event) : List UInt8 := history.flatMap Event.admittedBytes

/-- The plaintext that was acknowledged. -/
def acknowledgedBytes (history : List Event) : List UInt8 :=
  history.flatMap Event.acknowledgedBytes

/-- The plaintext in the queue that is not acknowledged yet. -/
def unsent (s : TlsPskStream) : List UInt8 := s.outbound.flatMap fun f => f.bytes.drop f.offset

/-- A slice that `SSL_write` was offered; `wanted` if it asked for it again. -/
structure Offer where
  slice : List UInt8
  wanted : Bool

def SslCall.offer : SslCall → Option Offer
  | sslWrite slice .wantRead | sslWrite slice .wantWrite => some ⟨slice, true⟩
  | sslWrite slice _ => some ⟨slice, false⟩
  | flush _ => none

def Event.offer : Event → Option Offer
  | .admitted _ => none
  | .ssl call => call.offer

def offers (history : List Event) : List Offer := history.filterMap Event.offer

/-- After a slice that was asked for again comes the same slice. -/
def Offer.Retried (o o' : Offer) : Prop := o.wanted = true → o'.slice = o.slice

/-- The first frame in the queue has the slice `slice` to write. -/
def Holds (s : TlsPskStream) (slice : List UInt8) : Prop :=
  ∃ frame rest, s.outbound = frame :: rest ∧ frame.offset ≠ frame.bytes.length ∧
    frame.slice = slice

structure Inv (x : Session) : Prop where
  bytes : x.stream.outboundBytes = (x.stream.outbound.map (·.bytes.length)).sum
  bytes_le : x.stream.outboundBytes ≤ maxOutboundBytes
  frames_le : x.stream.outbound.length ≤ maxOutboundFrames
  told : x.stream.writeFailed = false →
    acknowledgedBytes x.history ++ x.stream.unsent = admittedBytes x.history
  acknowledged : acknowledgedBytes x.history <+: admittedBytes x.history
  retried : (offers x.history).IsChain Offer.Retried
  retry : ∀ o ∈ (offers x.history).getLast?, o.wanted = true → x.stream.Holds o.slice
  final : History.Each (fun _ e after => e.Terminal → after = []) x.history
  live : x.stream.writeFailed = false → ∀ e ∈ x.history, ¬ e.Terminal

theorem inv_new : Inv Session.new where
  bytes := rfl
  bytes_le := Nat.zero_le _
  frames_le := Nat.zero_le _
  told _ := rfl
  acknowledged := List.prefix_rfl
  retried := .nil
  retry := nofun
  final := History.each_nil _
  live _ := nofun

/-! ### Queueing -/

variable {s s' : TlsPskStream} {x : Session}

theorem queueFrame_eq_ok {payload : List UInt8}
    (h : s.queueFrame payload = (.ok (), s')) :
    s.writeFailed = false ∧ s.outbound.length ≠ maxOutboundFrames ∧
      payload.length + 4 ≤ maxOutboundBytes - s.outboundBytes ∧
      s' = { s with
        outboundBytes := s.outboundBytes + (payload.length + 4)
        outbound := s.outbound ++ [⟨frameOf payload, 0, Nat.zero_le _⟩] } := by
  unfold queueFrame at h
  split at h
  · cases h
  next hlive =>
  split at h
  · cases h
  dsimp only at h
  split at h
  · cases h
  next hroom =>
  rw [not_or, Nat.not_lt] at hroom
  split at h
  · cases h
  next frame hframe =>
  obtain ⟨-, rfl⟩ := TcpFrameReader.encode_eq_ok.mp hframe
  cases h
  exact ⟨by simpa using hlive, hroom.1, hroom.2, rfl⟩

theorem queueFrame_eq_error {payload : List UInt8} {e : Error}
    (h : s.queueFrame payload = (.error e, s')) : s' = s := by
  unfold queueFrame at h
  split at h
  · cases h; rfl
  split at h
  · cases h; rfl
  dsimp only at h
  split at h
  · cases h; rfl
  split at h
  · cases h; rfl
  · cases h

/-! ### The history grows -/

section History

variable {history : List Event}

theorem admittedBytes_concat (e : Event) :
    admittedBytes (history ++ [e]) = admittedBytes history ++ e.admittedBytes := by
  simp [admittedBytes]

theorem acknowledgedBytes_concat (e : Event) :
    acknowledgedBytes (history ++ [e]) = acknowledgedBytes history ++ e.acknowledgedBytes := by
  simp [acknowledgedBytes]

theorem offers_concat (e : Event) :
    offers (history ++ [e]) = offers history ++ e.offer.toList := by
  cases h : e.offer <;> simp [offers, h]

theorem length_frameOf (payload : List UInt8) : (frameOf payload).length = payload.length + 4 := by
  simp [frameOf, Nat.add_comm]

theorem final_concat {e : Event} (hlive : ∀ e ∈ history, ¬ e.Terminal) :
    History.Each (fun _ e after => e.Terminal → after = []) (history ++ [e]) := by
  refine History.each_concat.mpr ⟨?_, fun _ => rfl⟩
  rintro before old after rfl hterminal
  exact (hlive old (by simp) hterminal).elim

end History

theorem Inv.queue {payload : List UInt8} (hi : Inv x)
    (h : x.stream.queueFrame payload = (.ok (), s)) :
    Inv ⟨s, x.history ++ [.admitted payload]⟩ := by
  obtain ⟨hlive, hroom, hfits, rfl⟩ := queueFrame_eq_ok h
  have hbytes := hi.bytes_le
  have htold : acknowledgedBytes x.history ++ x.stream.unsent ++ frameOf payload =
      admittedBytes (x.history ++ [.admitted payload]) := by
    rw [hi.told hlive, admittedBytes_concat]
    rfl
  have hsame : acknowledgedBytes (x.history ++ [.admitted payload]) =
      acknowledgedBytes x.history := by
    simp [acknowledgedBytes_concat, Event.acknowledgedBytes]
  have hoffers : offers (x.history ++ [.admitted payload]) = offers x.history := by
    simp [offers_concat, Event.offer]
  exact
    { bytes := by simp [hi.bytes, length_frameOf]
      bytes_le := show x.stream.outboundBytes + (payload.length + 4) ≤ _ by omega
      frames_le := by
        have := hi.frames_le
        simp only [List.length_append, List.length_singleton]
        omega
      told := fun _ => by
        rw [hsame, ← htold]
        simp [unsent]
      acknowledged := by
        rw [hsame, ← htold, List.append_assoc]
        exact List.prefix_append _ _
      retried := hoffers ▸ hi.retried
      retry := by
        rw [hoffers]
        intro o ho hwanted
        obtain ⟨frame, rest, hfront, hunsent, hslice⟩ := hi.retry o ho hwanted
        exact ⟨frame, rest ++ [_], by rw [hfront]; rfl, hunsent, hslice⟩
      final := final_concat (hi.live hlive)
      live := fun _ e he => by
        rcases List.mem_append.mp he with hold | hnew
        · exact hi.live hlive e hold
        · obtain rfl := List.mem_singleton.mp hnew
          exact not_false }

/-! ### Writing -/

theorem SslCall.Due.slice_eq {frame : PendingFrame} {call : SslCall} {o : Offer}
    (hdue : call.Due frame) (ho : call.offer = some o) :
    frame.offset ≠ frame.bytes.length ∧ o.slice = frame.slice := by
  cases call with
  | flush answer => cases ho
  | sslWrite slice answer =>
    refine ⟨hdue.1, ?_⟩
    cases answer <;> cases ho <;> exact hdue.2

theorem SslCall.not_terminal_of_wanted {call : SslCall} {o : Offer} (ho : call.offer = some o)
    (hwanted : o.wanted = true) : ¬ call.Terminal := by
  cases call with
  | flush answer => cases ho
  | sslWrite slice answer =>
    cases answer with
    | wantRead | wantWrite => exact not_false
    | ok count | error kind => cases ho; cases hwanted

/-- A call that is due for the first frame of the queue follows up what was asked for. -/
theorem Inv.retried_call {frame : PendingFrame} {rest : List PendingFrame}
    {call : SslCall} (hi : Inv x) (hfront : x.stream.outbound = frame :: rest)
    (hdue : call.Due frame) : (offers (x.history ++ [.ssl call])).IsChain Offer.Retried := by
  rw [offers_concat]
  cases ho : call.offer with
  | none => simpa [Event.offer, ho] using hi.retried
  | some o =>
    simp only [Event.offer, ho, Option.toList_some]
    refine hi.retried.append (.singleton o) fun last hlast o' ho' hwanted => ?_
    obtain rfl : o = o' := by simpa using ho'
    obtain ⟨frame', rest', hfront', -, hslice⟩ := hi.retry last hlast hwanted
    obtain ⟨rfl, -⟩ := List.cons.inj (hfront.symm.trans hfront')
    rw [(hdue.slice_eq ho).2, hslice]

theorem Inv.not_wanted {frame : PendingFrame} {rest : List PendingFrame}
    (hi : Inv x) (hfront : x.stream.outbound = frame :: rest)
    (hsent : frame.offset = frame.bytes.length) :
    ∀ o ∈ (offers x.history).getLast?, ¬ o.wanted = true := by
  intro o ho hwanted
  obtain ⟨frame', rest', hfront', hunsent, -⟩ := hi.retry o ho hwanted
  obtain ⟨rfl, -⟩ := List.cons.inj (hfront.symm.trans hfront')
  exact hunsent hsent

/-- What is asked for again after a call that is due for the first frame of the queue. -/
theorem Inv.retry_call {frame : PendingFrame}
    {rest : List PendingFrame} {call : SslCall} (hi : Inv x)
    (hfront : x.stream.outbound = frame :: rest) (hdue : call.Due frame)
    (hs : ∀ o, call.offer = some o → o.wanted = true → s.outbound = frame :: rest) :
    ∀ o ∈ (offers (x.history ++ [.ssl call])).getLast?, o.wanted = true → s.Holds o.slice := by
  intro o ho hwanted
  rw [offers_concat] at ho
  cases hcall : call.offer with
  | none =>
    -- the call is a flush, which nothing asked for again leaves room for
    cases call with
    | flush answer =>
      exact (hi.not_wanted hfront hdue o (by simpa [Event.offer, hcall] using ho) hwanted).elim
    | sslWrite slice answer => cases answer <;> cases hcall
  | some o' =>
    obtain rfl : o' = o := by simpa [Event.offer, hcall] using ho
    obtain ⟨hunsent, hslice⟩ := hdue.slice_eq hcall
    exact ⟨frame, rest, hs o' hcall hwanted, hunsent, hslice.symm⟩

theorem Inv.live_concat {call : SslCall} (hi : Inv x)
    (hlive : x.stream.writeFailed = false) (hopen : ¬ call.Terminal) :
    ∀ e ∈ x.history ++ [.ssl call], ¬ e.Terminal := by
  intro e he
  rcases List.mem_append.mp he with hold | hnew
  · exact hi.live hlive e hold
  · obtain rfl := List.mem_singleton.mp hnew
    exact hopen

theorem SslCall.acknowledged_of_terminal {call : SslCall} (h : call.Terminal) :
    call.acknowledged = [] := by
  cases call with
  | flush answer => rfl
  | sslWrite slice answer =>
    cases answer with
    | ok count => exact congrArg (slice.take ·) (show (count : ℕ) = 0 from h)
    | _ => rfl

theorem ends_of_nothing (history : List Event) (call : SslCall) (h : call.acknowledged = []) :
    acknowledgedBytes (history ++ [.ssl call]) = acknowledgedBytes history ∧
      admittedBytes (history ++ [.ssl call]) = admittedBytes history := by
  constructor
  · rw [acknowledgedBytes_concat, Event.acknowledgedBytes, h, List.append_nil]
  · rw [admittedBytes_concat, Event.admittedBytes, List.append_nil]

/-- What is left of a frame is the rest of its slice and what is left behind it. -/
theorem PendingFrame.drop_advance (frame : PendingFrame)
    (count : Fin (frame.slice.length + 1)) :
    frame.slice.take count ++ (frame.advance count).bytes.drop (frame.advance count).offset =
      frame.bytes.drop frame.offset := by
  have hcount : (count : ℕ) ≤ frame.slice.length := Nat.lt_succ_iff.mp count.isLt
  simp only [slice, List.length_drop, List.length_take] at hcount
  have htake : frame.slice.take count = (frame.bytes.drop frame.offset).take count := by
    generalize (count : ℕ) = n at hcount ⊢
    rw [slice, List.drop_take, List.take_take]
    congr 1
    omega
  rw [htake, advance, ← List.drop_drop, List.take_append_drop]

theorem Inv.move {calls : List SslCall} (hi : Inv x)
    (hmove : Move x.stream s calls) : Inv ⟨s, x.history ++ calls.map .ssl⟩ := by
  have hbytes := hi.bytes
  have hbytes_le := hi.bytes_le
  have hframes := hi.frames_le
  cases hmove with
  | idle hidle => simpa using hi
  | @popped frame rest hlive hfront hsent =>
    have hends := ends_of_nothing x.history (.flush (.ok ())) rfl
    have htold := hi.told hlive
    rw [hfront, List.map_cons, List.sum_cons] at hbytes
    rw [hfront, List.length_cons] at hframes
    rw [unsent, hfront, List.flatMap_cons, hsent, List.drop_length, List.nil_append] at htold
    exact
      { bytes := by
          show x.stream.outboundBytes - frame.bytes.length = (rest.map (·.bytes.length)).sum
          omega
        bytes_le := show x.stream.outboundBytes - frame.bytes.length ≤ _ by omega
        frames_le := Nat.le_of_succ_le hframes
        told := fun _ => by rw [List.map_singleton, hends.1, hends.2]; exact htold
        acknowledged := by rw [List.map_singleton, hends.1, hends.2]; exact hi.acknowledged
        retried := hi.retried_call hfront hsent
        retry := hi.retry_call hfront hsent nofun
        final := final_concat (hi.live hlive)
        live := fun _ => hi.live_concat hlive not_false }
  | @advanced frame rest count hlive hfront hunsent hcount =>
    have hdue : (SslCall.sslWrite frame.slice (.ok count)).Due frame := ⟨hunsent, rfl⟩
    have htold := hi.told hlive
    rw [unsent, hfront, List.flatMap_cons, ← frame.drop_advance count] at htold
    rw [hfront] at hbytes hframes
    have hacked : acknowledgedBytes (x.history ++ [.ssl (.sslWrite frame.slice (.ok count))]) =
        acknowledgedBytes x.history ++ frame.slice.take count := acknowledgedBytes_concat _
    have hadmitted : admittedBytes (x.history ++ [.ssl (.sslWrite frame.slice (.ok count))]) =
        admittedBytes x.history := by
      rw [admittedBytes_concat, Event.admittedBytes, List.append_nil]
    simp only [← List.append_assoc] at htold
    exact
      { bytes := hbytes
        bytes_le := hbytes_le
        frames_le := hframes
        told := fun _ => by
          rw [List.map_singleton, hacked, hadmitted, ← htold, unsent, List.flatMap_cons]
          simp only [List.append_assoc]
        acknowledged := by
          rw [List.map_singleton, hacked, hadmitted, ← htold]
          simp only [List.append_assoc, List.prefix_append_right_inj]
          exact List.prefix_append _ _
        retried := hi.retried_call hfront hdue
        retry := hi.retry_call hfront hdue fun o ho hwanted => by cases ho; cases hwanted
        final := final_concat (hi.live hlive)
        live := fun _ => hi.live_concat hlive hcount }
  | @kept frame rest call needsRead hlive hfront hdue hopen hnothing =>
    have hends := ends_of_nothing x.history call hnothing
    exact
      { bytes := hbytes
        bytes_le := hbytes_le
        frames_le := hframes
        told := fun h => by rw [List.map_singleton, hends.1, hends.2]; exact hi.told h
        acknowledged := by rw [List.map_singleton, hends.1, hends.2]; exact hi.acknowledged
        retried := hi.retried_call hfront hdue
        retry := hi.retry_call hfront hdue fun _ _ _ => hfront
        final := final_concat (hi.live hlive)
        live := fun _ => hi.live_concat hlive hopen }
  | @cancelled frame rest call hlive hfront hdue hterminal =>
    have hends := ends_of_nothing x.history call (SslCall.acknowledged_of_terminal hterminal)
    exact
      { bytes := rfl
        bytes_le := Nat.zero_le _
        frames_le := Nat.zero_le _
        told := nofun
        acknowledged := by rw [List.map_singleton, hends.1, hends.2]; exact hi.acknowledged
        retried := hi.retried_call hfront hdue
        retry := hi.retry_call hfront hdue fun o ho hwanted =>
          (SslCall.not_terminal_of_wanted ho hwanted hterminal).elim
        final := final_concat (hi.live hlive)
        live := nofun }

theorem Inv.step {x' : Session} {call : Call} (hi : Inv x) (h : Session.step x call = some x') :
    Inv x' := by
  cases call with
  | queueFrame payload =>
    simp only [Session.step] at h
    split at h
    next s hqueue =>
      cases h
      exact hi.queue hqueue
    next e s hqueue =>
      cases h
      rw [queueFrame_eq_error hqueue]
      exact hi
  | writeFrameStep ssl =>
    cases h
    exact hi.move (writeFrameStep_move x.stream ssl)

theorem inv_run {calls : List Call}
    (h : Machine.run Session.step .new calls = some x) : Inv x :=
  Machine.run_inv Inv.step inv_new h

theorem step_total (x : Session) (call : Call) : ∃ x', Session.step x call = some x' := by
  cases call with
  | queueFrame payload =>
    simp only [Session.step]
    split <;> exact ⟨_, rfl⟩
  | writeFrameStep ssl => exact ⟨_, rfl⟩

theorem run_total (x : Session) (calls : List Call) :
    ∃ x', Machine.run Session.step x calls = some x' := by
  induction calls generalizing x with
  | nil => exact ⟨x, rfl⟩
  | cons call calls ih =>
    obtain ⟨t, ht⟩ := step_total x call
    obtain ⟨x', hx'⟩ := ih t
    exact ⟨x', Machine.run_cons_eq_some.mpr ⟨t, ht, hx'⟩⟩

/-- **The outbound queue.**  Whatever is queued and however the connection answers: the byte count
is that of the queued frames and within its bound, as is their number; the plaintext acknowledged
so far is the beginning of the admitted frames, and with what is still queued it is all of them
unless the sending has failed; a slice that was asked for again is the next one offered; and behind
a terminal failure nothing is admitted or written. -/
theorem outbound_queue (calls : List Call) : ∃ x,
    Machine.run Session.step .new calls = some x ∧
    x.stream.outboundBytes = (x.stream.outbound.map (·.bytes.length)).sum ∧
    x.stream.outboundBytes ≤ maxOutboundBytes ∧
    x.stream.outbound.length ≤ maxOutboundFrames ∧
    acknowledgedBytes x.history <+: admittedBytes x.history ∧
    (x.stream.writeFailed = false →
      acknowledgedBytes x.history ++ x.stream.unsent = admittedBytes x.history) ∧
    (offers x.history).IsChain Offer.Retried ∧
    History.Each (fun _ e after => e.Terminal → after = []) x.history := by
  obtain ⟨x, hx⟩ := run_total .new calls
  have hi := inv_run hx
  exact ⟨x, hx, hi.bytes, hi.bytes_le, hi.frames_le, hi.acknowledged, hi.told, hi.retried, hi.final⟩

/-! ### Flushing -/

/-- The loop of `flush_pending_frames`, with the answers to its steps.  `none` if these do not bring
it to an end. -/
def flushLoop (s : TlsPskStream) :
    List Ssl → Option (Except Error Unit × TlsPskStream × List SslCall)
  | [] => if s.outbound.isEmpty then some (.ok (), s, []) else none
  | ssl :: answers =>
    if s.outbound.isEmpty then some (.ok (), s, [])
    else
      match s.writeFrameStep ssl with
      | (.error e, s, calls) => some (.error e, s, calls)
      | (.ok (), s, calls) =>
        (flushLoop s answers).map fun (r, s, later) => (r, s, calls ++ later)

def flushPendingFrames (s : TlsPskStream) (answers : List Ssl) :
    Option (Except Error Unit × TlsPskStream × List SslCall) :=
  if s.writeFailed then some (.error (.io .brokenPipe), s, []) else s.flushLoop answers

def writeFrame (s : TlsPskStream) (payload : List UInt8) (answers : List Ssl) :
    Option (Except Error Unit × TlsPskStream × List SslCall) :=
  match s.queueFrame payload with
  | (.error e, s) => some (.error e, s, [])
  | (.ok (), s) => s.flushPendingFrames answers

/-- A step that goes well does not cancel the queue. -/
theorem writeFrameStep_live {ssl : Ssl} {calls : List SslCall}
    (h : s.writeFrameStep ssl = (.ok (), s', calls)) : s'.writeFailed = false := by
  unfold writeFrameStep at h
  split at h
  · cases h
  next hlive =>
  have hlive : s.writeFailed = false := by simpa using hlive
  split at h
  · cases h
    exact hlive
  dsimp only at h
  split at h
  · -- of the errors only `interrupted` counts as done
    rcases hflush : ssl.flush with kind | ⟨⟩
    · rw [hflush] at h
      cases kind <;> cases h
      exact hlive
    · rw [hflush] at h
      cases h
      exact hlive
  · rcases hwrite : ssl.sslWrite _ with count | - | - | kind
    · rw [hwrite] at h
      dsimp only at h
      split at h
      · cases h
      · cases h
        exact hlive
    · rw [hwrite] at h
      cases h
    · rw [hwrite] at h
      cases h
    · rw [hwrite] at h
      cases kind <;> cases h
      exact hlive

/-- The loop makes steps, and only steps; if it returns, the queue is empty. -/
theorem flushLoop_run {answers : List Ssl} {r : Except Error Unit}
    {calls : List SslCall} (history : List Event)
    (h : s.flushLoop answers = some (r, s', calls)) :
    (∃ used, used <+: answers ∧ Machine.run Session.step ⟨s, history⟩ (used.map .writeFrameStep) =
      some ⟨s', history ++ calls.map .ssl⟩) ∧
    (r = .ok () → s'.outbound = [] ∧ (s.writeFailed = false → s'.writeFailed = false)) := by
  induction answers generalizing s history calls with
  | nil =>
    simp only [flushLoop] at h
    split at h
    next hempty =>
      cases h
      exact ⟨⟨[], List.prefix_rfl, by simp⟩, fun _ => ⟨List.isEmpty_iff.mp hempty, id⟩⟩
    · cases h
  | cons ssl answers ih =>
    simp only [flushLoop] at h
    split at h
    next hempty =>
      cases h
      exact ⟨⟨[], List.nil_prefix, by simp⟩, fun _ => ⟨List.isEmpty_iff.mp hempty, id⟩⟩
    split at h
    next e s₁ calls₁ hstep =>
      cases h
      refine ⟨⟨[ssl], List.prefix_append [ssl] answers, ?_⟩, nofun⟩
      refine Machine.run_cons_eq_some.mpr ⟨⟨s', history ++ calls.map .ssl⟩, ?_, rfl⟩
      simp only [Session.step, hstep]
    next s₁ calls₁ hstep =>
      obtain ⟨⟨r₂, s₂, later⟩, hlater, heq⟩ := Option.map_eq_some_iff.mp h
      cases heq
      obtain ⟨⟨used, hused, hrun⟩, hend⟩ := ih (history ++ calls₁.map .ssl) hlater
      refine ⟨⟨ssl :: used, List.cons_prefix_cons.mpr ⟨rfl, hused⟩, ?_⟩, fun hr =>
        ⟨(hend hr).1, fun _ => (hend hr).2 (writeFrameStep_live hstep)⟩⟩
      refine Machine.run_cons_eq_some.mpr
        ⟨⟨s₁, history ++ calls₁.map .ssl⟩, by simp only [Session.step, hstep], ?_⟩
      simpa using hrun

/-- **Who owns a payload after `write_frame`.**  Either the queue has refused it, and nothing has
happened; or the stream owns it, whatever the call returns, and goes on as if the payload had been
queued and so many steps been made.  It returns without an error only when every byte that was ever
admitted has been acknowledged, this payload the last. -/
theorem write_frame_owned {calls : List Call} (hx : Machine.run Session.step .new calls = some x)
    {payload : List UInt8} {answers : List Ssl} {r : Except Error Unit} {out : List SslCall}
    (h : x.stream.writeFrame payload answers = some (r, s, out)) :
    ((∃ e, x.stream.queueFrame payload = (.error e, x.stream) ∧ r = .error e) ∧
      s = x.stream ∧ out = []) ∨
    ∃ used history, used <+: answers ∧ history = x.history ++ .admitted payload :: out.map .ssl ∧
      Machine.run Session.step .new
        (calls ++ .queueFrame payload :: used.map .writeFrameStep) = some ⟨s, history⟩ ∧
      (r = .ok () → s.outbound = [] ∧ acknowledgedBytes history = admittedBytes history) := by
  rcases hqueue : x.stream.queueFrame payload with ⟨e | ⟨⟩, queued⟩
  · rw [writeFrame, hqueue] at h
    obtain rfl := queueFrame_eq_error hqueue
    cases h
    exact .inl ⟨⟨e, rfl, rfl⟩, rfl, rfl⟩
  · right
    have hlive : queued.writeFailed = false := by
      obtain ⟨hlive, -, -, rfl⟩ := queueFrame_eq_ok hqueue
      exact hlive
    rw [writeFrame, hqueue] at h
    dsimp only at h
    rw [flushPendingFrames, if_neg (by simp [hlive])] at h
    obtain ⟨⟨used, hused, hrun⟩, hend⟩ := flushLoop_run (x.history ++ [.admitted payload]) h
    rw [List.append_assoc, List.singleton_append] at hrun
    have hall : Machine.run Session.step .new (calls ++ .queueFrame payload ::
        used.map .writeFrameStep) = some ⟨s, x.history ++ .admitted payload :: out.map .ssl⟩ :=
      Machine.run_append_eq_some.mpr ⟨x, hx, Machine.run_cons_eq_some.mpr
        ⟨⟨queued, x.history ++ [.admitted payload]⟩, by simp only [Session.step, hqueue], hrun⟩⟩
    refine ⟨used, _, hused, rfl, hall, fun hr => ?_⟩
    obtain ⟨hempty, hstill⟩ := hend hr
    exact ⟨hempty, by simpa [unsent, hempty] using (inv_run hall).told (hstill hlive)⟩

/-- A connection that takes what it is offered. -/
def takesAll : Ssl := ⟨fun _ => .ok (Fin.last _), .ok ()⟩

theorem write_frame_owned_flushed : ∃ s out,
    new.writeFrame [7] [takesAll, takesAll] = some (.ok (), s, out) ∧
      acknowledgedBytes (.admitted [7] :: out.map .ssl) = [1, 0, 0, 0, 7] := by
  have hflushed : ∃ s out, new.writeFrame [7] [takesAll, takesAll] = some (.ok (), s, out) :=
    ⟨_, _, rfl⟩
  obtain ⟨s, out, h⟩ := hflushed
  refine ⟨s, out, h, ?_⟩
  rcases write_frame_owned (show Machine.run Session.step .new [] = some .new from rfl) h with
    ⟨⟨e, -, hr⟩, -⟩ | ⟨-, history, -, rfl, -, hok⟩
  · cases hr
  · obtain ⟨-, hacknowledged⟩ := hok rfl
    refine hacknowledged.trans ?_
    simp [Session.new, admittedBytes, Event.admittedBytes, frameOf, Bytes.toLE]

end TlsPskStream
end MahoRD

/-
MahoRD/Host/ControlPath.lean

Control messages over TCP, from one end to the other: a message is encoded and put behind a packet
header, the stream frames the packet and writes it piece by piece, and the peer reads the frames out
of whatever pieces TLS hands it.  TLS itself is taken to deliver a prefix of what it acknowledged.
-/
import MahoRD.Host.Session
import MahoRD.Net.TlsPskStream
import MahoRD.Proto.ControlCodec

namespace MahoRD.ControlPath

open TlsPskStream TcpFrameReader

/-- What `send_tcp_packet` and `send_ready_packet` hand to the stream. -/
def packet (header : PacketHeader) (payload : List UInt8) : List UInt8 := header.toBytes ++ payload

/-- An admitted payload that carries the message behind the header. -/
def Carries (m : PacketHeader × ControlMessage) (payload : List UInt8) : Prop :=
  ∃ body, m.2.encode = .ok body ∧ payload = packet m.1 body

/-- `split_packet` and `ControlMessage::decode` on what the frame reader reports. -/
def received : TcpFrameEvent → Option (PacketHeader × ControlMessage)
  | .droppedInvalidLength _ => none
  | .frame frame =>
    match Host.splitPacket frame with
    | .error _ => none
    | .ok (header, payload) => (ControlMessage.decode payload).toOption.map (header, ·)

def admitted (history : List Event) : List (List UInt8) :=
  history.filterMap fun | .admitted payload => some payload | .ssl _ => none

theorem received_packet {m : PacketHeader × ControlMessage} {payload : List UInt8}
    (h : Carries m payload) : received (.frame payload) = some m := by
  obtain ⟨body, hbody, rfl⟩ := h
  have hlen := PacketHeader.length_toBytes m.1
  have hsplit : Host.splitPacket (packet m.1 body) = .ok (m.1, body) := by
    rw [Host.splitPacket, packet, if_neg (by simp), List.take_left' hlen, List.drop_left' hlen,
      PacketHeader.decode_toBytes]
  simp [received, hsplit, ControlMessage.decode_of_encode hbody, Except.toOption]

theorem received_all {sent : List (PacketHeader × ControlMessage)} {payloads : List (List UInt8)}
    (h : List.Forall₂ Carries sent payloads) :
    payloads.map (received ∘ .frame) = sent.map some ∧ ∀ p ∈ payloads, p ≠ [] := by
  induction h with
  | nil => exact ⟨rfl, nofun⟩
  | cons hm _ ih =>
    refine ⟨by rw [List.map_cons, ih.1, List.map_cons, Function.comp_apply, received_packet hm],
      List.forall_mem_cons.mpr ⟨?_, ih.2⟩⟩
    obtain ⟨body, -, rfl⟩ := hm
    exact fun hnil => by simpa [packet, PacketHeader.size] using congrArg List.length hnil

/-! ### Frames in pieces -/

variable {payloads : List (List UInt8)} {chunks : List (List UInt8)}

/-- However the frames are cut, their payloads are read. -/
theorem pushAll_frames (hall : ∀ p ∈ payloads, p ≠ [] ∧ p.length ≤ maxTcpFrameSize)
    (h : chunks.flatten = (payloads.map frameOf).flatten) :
    (TcpFrameReader.new.pushAll chunks).1 = payloads.map .frame := by
  have hdrain := Incremental.Reader.drain_items (r := reader)
    (payloads.map fun p => (frameOf p, TcpFrameEvent.frame p)) [] (by
      rintro i hi more
      obtain ⟨p, hp, rfl⟩ := List.mem_map.mp hi
      exact look_frame (hall p hp).1 (hall p hp).2 more) rfl
  simp only [List.map_map, Function.comp_def, List.append_nil, ← h] at hdrain
  rw [pushAll_eq, Incremental.Reader.feed_eq_drain (r := reader) rfl]
  · exact congrArg Prod.fst hdrain
  · intro e he
    rw [show TcpFrameReader.new.buffer ++ chunks.flatten = chunks.flatten from rfl, hdrain] at he
    obtain ⟨p, -, rfl⟩ := List.mem_map.mp he
    rfl

theorem pushAll_append (r : TcpFrameReader) (chunks more : List (List UInt8)) :
    (r.pushAll chunks).1 <+: (r.pushAll (chunks ++ more)).1 := by
  induction chunks generalizing r with
  | nil => exact List.nil_prefix
  | cons chunk chunks ih => exact (List.prefix_append_right_inj _).mpr (ih _)

/-! ### Admission -/

variable {x x' : Session}

theorem admittedBytes_eq (history : List Event) :
    admittedBytes history = ((admitted history).map frameOf).flatten := by
  induction history with
  | nil => rfl
  | cons e history ih =>
    cases e <;> simpa [admittedBytes, admitted, Event.admittedBytes] using ih

theorem admitted_ssl (history : List Event) (calls : List SslCall) :
    admitted (history ++ calls.map .ssl) = admitted history := by
  simp [admitted, List.filterMap_append, List.filterMap_map, Function.comp_def]

/-- Only frames within the limit are admitted. -/
theorem admitted_le {calls : List Call} (h : Machine.run Session.step .new calls = some x) :
    ∀ p ∈ admitted x.history, p.length ≤ maxTcpFrameSize := by
  refine Machine.run_inv (I := fun x => ∀ p ∈ admitted x.history, p.length ≤ maxTcpFrameSize)
    (fun {x call x'} hx hstep => ?_) (by simp [Session.new, admitted]) h
  cases call with
  | writeFrameStep ssl =>
    cases hstep
    rwa [admitted_ssl]
  | queueFrame payload =>
    simp only [Session.step] at hstep
    split at hstep
    next s hqueue =>
      cases hstep
      obtain ⟨-, -, hroom, -⟩ := queueFrame_eq_ok hqueue
      have hle : payload.length ≤ maxTcpFrameSize := by
        simp only [maxOutboundBytes] at hroom
        omega
      simpa [admitted, or_imp, forall_and, hle] using hx
    · cases hstep
      exact hx

/-- **Control messages arrive in order, each as it was sent.**  Whatever is queued and however the
connection takes it: the peer that has read any part of the acknowledged bytes, in any pieces, has
received the first of the messages sent, with their headers, and nothing else; and all of them once
everything admitted has arrived. -/
theorem control_path {calls : List Call} (hx : Machine.run Session.step .new calls = some x)
    {sent : List (PacketHeader × ControlMessage)}
    (hsent : List.Forall₂ Carries sent (admitted x.history))
    (hread : chunks.flatten <+: acknowledgedBytes x.history) :
    (TcpFrameReader.new.pushAll chunks).1.map received <+: sent.map some ∧
      (chunks.flatten = admittedBytes x.history →
        (TcpFrameReader.new.pushAll chunks).1.map received = sent.map some) := by
  obtain ⟨hreceived, hne⟩ := received_all hsent
  have hall : ∀ p ∈ admitted x.history, p ≠ [] ∧ p.length ≤ maxTcpFrameSize :=
    fun p hp => ⟨hne p hp, admitted_le hx p hp⟩
  have hframes (pieces : List (List UInt8)) (h : pieces.flatten = admittedBytes x.history) :
      (TcpFrameReader.new.pushAll pieces).1.map received = sent.map some := by
    rw [pushAll_frames hall (h.trans (admittedBytes_eq _)), List.map_map, hreceived]
  refine ⟨?_, hframes chunks⟩
  obtain ⟨rest, hrest⟩ := hread.trans (inv_run hx).acknowledged
  rw [← hframes (chunks ++ [rest]) (by simpa using hrest)]
  exact (pushAll_append _ chunks [rest]).map received

def pingPacket : List UInt8 := packet ⟨.control, 1, 5, 0⟩ [4]

/-- A ping is queued and taken; the peer reads it in two pieces. -/
theorem control_path_ping : ∃ x, Machine.run Session.step .new
      [.queueFrame pingPacket, .writeFrameStep takesAll] = some x ∧
    acknowledgedBytes x.history = frameOf pingPacket ∧
    (TcpFrameReader.new.pushAll [(frameOf pingPacket).take 7, (frameOf pingPacket).drop 7]).1.map
      received = [some (⟨.control, 1, 5, 0⟩, .ping)] := by
  have hrun : ∃ x, Machine.run Session.step .new
      [.queueFrame pingPacket, .writeFrameStep takesAll] = some x ∧
      acknowledgedBytes x.history = frameOf pingPacket ∧ admitted x.history = [pingPacket] :=
    ⟨_, rfl, rfl, rfl⟩
  obtain ⟨x, hx, hbytes, hadmitted⟩ := hrun
  have hsent : List.Forall₂ Carries [(⟨.control, 1, 5, 0⟩, .ping)] (admitted x.history) := by
    rw [hadmitted]
    exact .cons ⟨[4], rfl, rfl⟩ .nil
  refine ⟨x, hx, hbytes, (control_path hx hsent ?_).2 ?_⟩
  · simp [hbytes]
  · simp [admittedBytes_eq, hadmitted]

end MahoRD.ControlPath

/-
MahoRD/Video/RoundTrip.lean

A frame through `send_frame`, the network and the assembler: when all of its
packets have come, in whatever order and however often, it has been handed out
exactly once.

Four things can get in the way, and `Undisturbed` excludes them: a packet comes
when the frame has timed out, the tables are full of other frames, the header of
a later key frame makes the frame useless, and a group of orphans that holds all
of 8192 chunks is dropped at one chunk more.
-/
import MahoRD.App.FrameHolding
import MahoRD.Host.VideoSender
import MahoRD.Lib.Machine

namespace MahoRD

/-- The media packets of the client's `handle_packet`, decoded. -/
def Packet.media (p : Packet) : Option MediaPacket :=
  match p.header.packetType with
  | .frameHeader =>
    match FrameHeader.decode p.payload with
    | .error _ => none
    | .ok header => some (.header header p.header.timestampMs)
  | .frameChunk =>
    match FrameChunk.decode p.payload with
    | .error _ => none
    | .ok chunk => some (.chunk chunk)
  | _ => none

namespace RoundTrip

/-! ### Reception -/

/-- An assembler with what has come to it, and when, and what it has handed
out. -/
structure Reception where
  assembler : FrameAssembler
  seen : List (MediaPacket × ℕ)
  completed : List AssembledFrame

def receive (x : Reception) (d : MediaPacket × ℕ) : Reception :=
  match x.assembler.receive d.2 d.1 with
  | (.ok (some frame), assembler) => ⟨assembler, x.seen ++ [d], x.completed ++ [frame]⟩
  | (.ok none, assembler) | (.error _, assembler) => ⟨assembler, x.seen ++ [d], x.completed⟩

def step (x : Reception) (d : MediaPacket × ℕ) : Option Reception := some (receive x d)

/-- Every packet of the frame has come. -/
def Delivered (own : List MediaPacket) (x : Reception) : Prop :=
  ∀ m ∈ own, m ∈ x.seen.map Prod.fst

/-- The packet at the place `i` of the frame has come. -/
def Seen (x : Reception) (id : UInt32) (i : Option ℕ) : Prop :=
  ∃ e ∈ x.seen, e.1.frameId = id ∧ e.1.index = i

/-- A packet of the frame came at `t`. -/
def Times (x : Reception) (id : UInt32) (t : ℕ) : Prop :=
  ∃ e ∈ x.seen, e.1.frameId = id ∧ e.2 = t

/-- A packet that does not make the frame useless: no header of a later key
frame after the frame's own header, and no chunk of the frame when all 8192
chunks wait for the header. -/
def Harmless (id : UInt32) (x : Reception) : MediaPacket → Prop
  | .header h _ =>
    h.isKeyFrame = true → Seen x id none → serialNotBefore id h.frameId = true
  | .chunk c =>
    c.frameId = id →
      ∀ o ∈ x.assembler.orphans.lookup id, o.chunks.size < maxChunksPerFrame.toNat

/-- The frame is not disturbed: it is in time, there is room for it before and
after, and the packet does it no harm. -/
structure Undisturbed (id : UInt32) (x : Reception) (d : MediaPacket × ℕ) : Prop where
  inTime : ∀ e ∈ x.seen, e.1.frameId = id → d.2 - e.2 < assemblyTimeout
  before : FrameAssembler.Room id x.assembler
  after : FrameAssembler.Room id (receive x d).assembler
  harmless : Harmless id x d.1

/-- Under its id only packets of the frame come, and none after the last, and
until then the frame is not disturbed. -/
structure Fair (own : List MediaPacket) (id : UInt32) (x : Reception) (d : MediaPacket × ℕ) :
    Prop where
  genuine : d.1.frameId = id → d.1 ∈ own
  last : Delivered own x → d.1.frameId ≠ id
  undisturbed : ¬ Delivered own x → Undisturbed id x d

instance (own : List MediaPacket) (x : Reception) : Decidable (Delivered own x) :=
  inferInstanceAs (Decidable (∀ m ∈ own, m ∈ x.seen.map Prod.fst))

instance (x : Reception) (id : UInt32) (i : Option ℕ) : Decidable (Seen x id i) :=
  inferInstanceAs (Decidable (∃ e ∈ x.seen, e.1.frameId = id ∧ e.1.index = i))

instance (id : UInt32) (x : Reception) (m : MediaPacket) : Decidable (Harmless id x m) :=
  match m with
  | .header h _ =>
    inferInstanceAs (Decidable (h.isKeyFrame = true → Seen x id none →
      serialNotBefore id h.frameId = true))
  | .chunk c =>
    inferInstanceAs (Decidable (c.frameId = id →
      ∀ o ∈ x.assembler.orphans.lookup id, o.chunks.size < maxChunksPerFrame.toNat))

instance (id : UInt32) (s : FrameAssembler) : Decidable (FrameAssembler.Room id s) :=
  decidable_of_iff (Table.size (s.frames.erase id) < maxIncompleteFrames ∧
      Table.size (s.orphans.erase id) < maxOrphanFrames)
    ⟨fun h => ⟨h.1, h.2⟩, fun h => ⟨h.frames, h.orphans⟩⟩

instance (id : UInt32) (x : Reception) (d : MediaPacket × ℕ) : Decidable (Undisturbed id x d) :=
  decidable_of_iff ((∀ e ∈ x.seen, e.1.frameId = id → d.2 - e.2 < assemblyTimeout) ∧
      FrameAssembler.Room id x.assembler ∧ FrameAssembler.Room id (receive x d).assembler ∧
      Harmless id x d.1)
    ⟨fun h => ⟨h.1, h.2.1, h.2.2.1, h.2.2.2⟩, fun h => ⟨h.inTime, h.before, h.after, h.harmless⟩⟩

instance (own : List MediaPacket) (id : UInt32) (x : Reception) (d : MediaPacket × ℕ) :
    Decidable (Fair own id x d) :=
  decidable_of_iff ((d.1.frameId = id → d.1 ∈ own) ∧ (Delivered own x → d.1.frameId ≠ id) ∧
      (¬ Delivered own x → Undisturbed id x d))
    ⟨fun h => ⟨h.1, h.2.1, h.2.2⟩, fun h => ⟨h.genuine, h.last, h.undisturbed⟩⟩

theorem receive_seen (x : Reception) (d : MediaPacket × ℕ) :
    (receive x d).seen = x.seen ++ [d] := by
  unfold receive
  split <;> rfl

theorem receive_assembler (x : Reception) (d : MediaPacket × ℕ) :
    (receive x d).assembler = (x.assembler.receive d.2 d.1).2 := by
  unfold receive
  split <;> simp_all

variable {d : MediaPacket × ℕ} {x : Reception} {p : Packet}

theorem receive_completed_of_some {frame : AssembledFrame}
    (h : (x.assembler.receive d.2 d.1).1 = .ok (some frame)) :
    (receive x d).completed = x.completed ++ [frame] := by
  unfold receive
  split <;> simp_all

theorem receive_completed (x : Reception) (d : MediaPacket × ℕ) :
    (∃ frame, (x.assembler.receive d.2 d.1).1 = .ok (some frame) ∧
      (receive x d).completed = x.completed ++ [frame]) ∨
    (receive x d).completed = x.completed := by
  unfold receive
  split
  next frame assembler heq => exact Or.inl ⟨frame, by rw [heq], rfl⟩
  · exact Or.inr rfl
  · exact Or.inr rfl

theorem seen_receive {id : UInt32} {i : Option ℕ} :
    Seen (receive x d) id i ↔ (d.1.frameId = id ∧ d.1.index = i) ∨ Seen x id i := by
  simp only [Seen, receive_seen, List.mem_append, List.mem_singleton, or_and_right, exists_or,
    exists_eq_left]
  exact or_comm

theorem times_receive {id : UInt32} {t : ℕ} :
    Times (receive x d) id t ↔ (d.1.frameId = id ∧ d.2 = t) ∨ Times x id t := by
  simp only [Times, receive_seen, List.mem_append, List.mem_singleton, or_and_right, exists_or,
    exists_eq_left]
  exact or_comm

/-! ### The packets of the frame by their places -/

section Following

variable {F : SplitFrame} {timestampMs : UInt32}

theorem frameId_of_mem {m : MediaPacket} (h : m ∈ F.packets timestampMs) :
    m.frameId = F.header.frameId := by
  rcases SplitFrame.mem_packets.mp h with rfl | ⟨j, piece, -, rfl⟩
  · rfl
  · rfl

theorem index_chunk {j : ℕ} {piece : List UInt8} (h : F.pieces[j]? = some piece) :
    (MediaPacket.chunk (F.chunk j piece)).index = some j :=
  congrArg some (SplitFrame.toNat_index h)

theorem eq_of_index {m m' : MediaPacket} (h : m ∈ F.packets timestampMs)
    (h' : m' ∈ F.packets timestampMs) (heq : m.index = m'.index) : m = m' := by
  rcases SplitFrame.mem_packets.mp h with rfl | ⟨j, piece, hj, rfl⟩
  · rcases SplitFrame.mem_packets.mp h' with rfl | ⟨j', piece', hj', rfl⟩
    · rfl
    · rw [index_chunk hj'] at heq
      cases heq
  · rcases SplitFrame.mem_packets.mp h' with rfl | ⟨j', piece', hj', rfl⟩
    · rw [index_chunk hj] at heq
      cases heq
    · rw [index_chunk hj, index_chunk hj'] at heq
      obtain rfl := Option.some.inj heq
      obtain rfl := Option.some.inj (hj.symm.trans hj')
      rfl

theorem whole_iff {came : Option ℕ → Prop} :
    FrameAssembler.Whole F came ↔ ∀ m ∈ F.packets timestampMs, came m.index := by
  constructor
  · rintro ⟨hheader, hchunks⟩ m hm
    rcases SplitFrame.mem_packets.mp hm with rfl | ⟨j, piece, hj, rfl⟩
    · exact hheader
    · rw [index_chunk hj]
      exact hchunks j (SplitFrame.lt_size hj)
  · intro hall
    refine ⟨hall _ (SplitFrame.mem_packets.mpr (Or.inl rfl)), fun j hj => ?_⟩
    have hpiece := List.getElem?_eq_getElem hj
    rw [← index_chunk hpiece]
    exact hall _ (SplitFrame.mem_packets.mpr (Or.inr ⟨j, _, hpiece, rfl⟩))

/-- All that came under the id of the frame are packets of the frame. -/
def Genuine (F : SplitFrame) (timestampMs : UInt32) (x : Reception) : Prop :=
  ∀ e ∈ x.seen, e.1.frameId = F.header.frameId → e.1 ∈ F.packets timestampMs

variable {x : Reception} {d : MediaPacket × ℕ} {s : FrameAssembler}

theorem delivered_iff (h : Genuine F timestampMs x) :
    Delivered (F.packets timestampMs) x ↔
      FrameAssembler.Whole F (Seen x F.header.frameId) := by
  have hwhole : FrameAssembler.Whole F (Seen x F.header.frameId) ↔
      ∀ m ∈ F.packets timestampMs, Seen x F.header.frameId m.index := whole_iff
  rw [hwhole]
  refine forall₂_congr fun m hm => ?_
  rw [List.mem_map]
  constructor
  · rintro ⟨e, he, rfl⟩
    exact ⟨e, he, frameId_of_mem hm, rfl⟩
  · rintro ⟨e, he, hid, hindex⟩
    exact ⟨e, he, eq_of_index (h e he hid) hm hindex⟩

/-! ### Following the frame -/

/-- The frame handed out. -/
def assembled (F : SplitFrame) (timestampMs : UInt32) : AssembledFrame :=
  ⟨F.header, F.pieces.flatten, timestampMs⟩

/-- What has been handed out under an id. -/
def completedOf (id : UInt32) (x : Reception) : List AssembledFrame :=
  x.completed.filter fun f => f.header.frameId = id

/-- Until all has come, the assembler holds what has come; then the frame has
been handed out once, and nothing is held of it. -/
structure Following (F : SplitFrame) (timestampMs : UInt32) (x : Reception) : Prop where
  genuine : Genuine F timestampMs x
  keyed : x.assembler.Holds (fun _ => True) (fun _ => True)
  going : ¬ Delivered (F.packets timestampMs) x →
    FrameAssembler.Holding F timestampMs (Seen x F.header.frameId) (Times x F.header.frameId)
      x.assembler ∧ completedOf F.header.frameId x = []
  done : Delivered (F.packets timestampMs) x →
    FrameAssembler.Absent F.header.frameId x.assembler ∧
      completedOf F.header.frameId x = [assembled F timestampMs]

theorem genuine_receive (h : Genuine F timestampMs x)
    (hd : d.1.frameId = F.header.frameId → d.1 ∈ F.packets timestampMs) :
    Genuine F timestampMs (receive x d) := by
  intro e he hid
  rw [receive_seen] at he
  rcases List.mem_append.mp he with hold | hnew
  · exact h e hold hid
  · obtain rfl := List.mem_singleton.mp hnew
    exact hd hid

theorem holds_receive (h : s.Holds (fun _ => True) (fun _ => True)) (now : ℕ)
    (m : MediaPacket) : (s.receive now m).2.Holds (fun _ => True) (fun _ => True) := by
  cases m with
  | header header timestampMs => exact (h.pushHeader trivial timestampMs now).1
  | chunk chunk => exact (h.pushChunk trivial now).1

theorem holds_after (h : s.Holds (fun _ => True) (fun _ => True))
    (call : FrameAssembler.Call) : (s.after call).Holds (fun _ => True) (fun _ => True) := by
  cases call with
  | pushHeader header timestampMs now => exact (h.pushHeader trivial timestampMs now).1
  | pushChunk chunk now => exact (h.pushChunk trivial now).1
  | expire now => exact h.expire now
  | clear => exact FrameAssembler.holds_new.sub (fun _ _ hl => hl) (fun _ _ hl => hl)

theorem outcome_receive (h : Following F timestampMs x)
    (hm : d.1 ∈ F.packets timestampMs) (hgoing : ¬ Delivered (F.packets timestampMs) x)
    (hd : Undisturbed F.header.frameId x d) :
    FrameAssembler.Outcome F timestampMs (Seen (receive x d) F.header.frameId)
      (Times (receive x d) F.header.frameId) (x.assembler.receive d.2 d.1) := by
  have hlive : ∀ t, Times x F.header.frameId t → d.2 - t < assemblyTimeout := by
    rintro t ⟨e, he, hid, rfl⟩
    exact hd.inTime e he hid
  have hseen : Seen (receive x d) F.header.frameId
      = fun i => i = d.1.index ∨ Seen x F.header.frameId i := by
    funext i
    rw [seen_receive, frameId_of_mem hm, eq_self, true_and, @eq_comm _ i]
  have htimes : Times (receive x d) F.header.frameId
      = fun t => t = d.2 ∨ Times x F.header.frameId t := by
    funext t
    rw [times_receive, frameId_of_mem hm, eq_self, true_and, @eq_comm _ t]
  obtain ⟨hholding, -⟩ := h.going hgoing
  rw [hseen, htimes]
  obtain ⟨m, now⟩ := d
  rcases SplitFrame.mem_packets.mp hm with rfl | ⟨j, piece, hj, rfl⟩
  · exact FrameAssembler.outcome_pushHeader hholding hlive hd.before
  · rw [index_chunk hj]
    exact FrameAssembler.outcome_pushChunk hholding hlive hd.before (hd.harmless rfl) hj

theorem following_own (h : Following F timestampMs x)
    (hm : d.1 ∈ F.packets timestampMs) (hgoing : ¬ Delivered (F.packets timestampMs) x)
    (hd : Undisturbed F.header.frameId x d) : Following F timestampMs (receive x d) := by
  have hgenuine := genuine_receive h.genuine (d := d) fun _ => hm
  have hkeyed := holds_receive h.keyed d.2 d.1
  have hcompleted := (h.going hgoing).2
  rw [← receive_assembler] at hkeyed
  rcases outcome_receive h hm hgoing hd with ⟨hwhole, hframe, habsent⟩ | ⟨hpart, hnone, hholding⟩
  · refine ⟨hgenuine, hkeyed, absurd ((delivered_iff hgenuine).mpr hwhole), fun _ => ⟨?_, ?_⟩⟩
    · rw [receive_assembler]
      exact habsent
    · rw [completedOf, receive_completed_of_some hframe, List.filter_append]
      rw [completedOf] at hcompleted
      simp [hcompleted, assembled]
  · have hgoing' := mt (delivered_iff hgenuine).mp hpart
    refine ⟨hgenuine, hkeyed, fun _ => ⟨?_, ?_⟩, fun hall => absurd hall hgoing'⟩
    · rw [receive_assembler]
      exact hholding
    · rcases receive_completed x d with ⟨frame, hframe, -⟩ | hsame
      · rw [hnone] at hframe
        cases hframe
      · rw [completedOf, hsame]
        exact hcompleted

theorem leaves_receive (h : Following F timestampMs x)
    (hne : d.1.frameId ≠ F.header.frameId)
    (hd : ¬ Delivered (F.packets timestampMs) x → Undisturbed F.header.frameId x d) :
    FrameAssembler.Leaves F.header.frameId (¬ Delivered (F.packets timestampMs) x) x.assembler
      (receive x d).assembler := by
  have hlive : ¬ Delivered (F.packets timestampMs) x →
      FrameAssembler.Live F.header.frameId d.2 x.assembler := by
    refine fun hgoing => (h.going hgoing).1.live ?_
    rintro t ⟨e, he, hid, rfl⟩
    exact (hd hgoing).inTime e he hid
  have hafter := fun hgoing => (hd hgoing).after.frames
  rw [receive_assembler] at hafter ⊢
  obtain ⟨header | chunk, now⟩ := d
  · refine FrameAssembler.leaves_pushHeader hne hlive (fun hgoing hkey hsome => ?_) hafter
    exact (hd hgoing).harmless hkey ((h.going hgoing).1.header hsome)
  · exact FrameAssembler.leaves_pushChunk hne hlive

/-- A packet of another frame leaves the frame alone, and what comes of it is
another frame. -/
theorem following_other (h : Following F timestampMs x)
    (hne : d.1.frameId ≠ F.header.frameId)
    (hd : ¬ Delivered (F.packets timestampMs) x → Undisturbed F.header.frameId x d) :
    Following F timestampMs (receive x d) := by
  have hgenuine := genuine_receive h.genuine (d := d) fun heq => absurd heq hne
  have hkeyed := holds_receive h.keyed d.2 d.1
  rw [← receive_assembler] at hkeyed
  have hseen : Seen (receive x d) F.header.frameId = Seen x F.header.frameId := by
    funext i
    rw [seen_receive, eq_false hne, false_and, false_or]
  have htimes : Times (receive x d) F.header.frameId = Times x F.header.frameId := by
    funext t
    rw [times_receive, eq_false hne, false_and, false_or]
  have hdelivered : Delivered (F.packets timestampMs) (receive x d) ↔
      Delivered (F.packets timestampMs) x := by
    rw [delivered_iff hgenuine, delivered_iff h.genuine, hseen]
  have hcompleted : completedOf F.header.frameId (receive x d)
      = completedOf F.header.frameId x := by
    rcases receive_completed x d with ⟨frame, hframe, happend⟩ | hsame
    · have hid := FrameAssembler.receive_frameId (fun k a ha => (h.keyed.frames k a ha).2.1) hframe
      rw [completedOf, happend, List.filter_append, completedOf]
      simp [hid, hne]
    · rw [completedOf, hsame, completedOf]
  have hleaves := leaves_receive h hne hd
  refine ⟨hgenuine, hkeyed, fun hgoing => ?_, fun hall => ?_⟩
  · rw [hdelivered] at hgoing
    obtain ⟨hholding, hnone⟩ := h.going hgoing
    rw [hseen, htimes, hcompleted]
    exact ⟨hholding.leaves hgoing hleaves, hnone⟩
  · obtain ⟨habsent, hone⟩ := h.done (hdelivered.mp hall)
    exact ⟨hleaves.absent habsent, hcompleted.trans hone⟩

theorem following_step {x' : Reception} (h : Following F timestampMs x)
    (hd : Fair (F.packets timestampMs) F.header.frameId x d) (hs : step x d = some x') :
    Following F timestampMs x' := by
  obtain rfl := Option.some.inj hs
  by_cases heq : d.1.frameId = F.header.frameId
  · have hgoing := fun hall => hd.last hall heq
    exact following_own h (hd.genuine heq) hgoing (hd.undisturbed hgoing)
  · exact following_other h heq hd.undisturbed

theorem completed_of_delivered {arrivals : List (MediaPacket × ℕ)} (hkeyed : s.Holds (fun _ => True) (fun _ => True))
    (hnew : FrameAssembler.Absent F.header.frameId s)
    (hfair : Machine.Along step (Fair (F.packets timestampMs) F.header.frameId) ⟨s, [], []⟩ arrivals)
    (hrun : Machine.run step ⟨s, [], []⟩ arrivals = some x)
    (hall : Delivered (F.packets timestampMs) x) :
    completedOf F.header.frameId x = [assembled F timestampMs] := by
  have hstart : Following F timestampMs ⟨s, [], []⟩ := by
    refine ⟨by simp [Genuine], hkeyed, fun _ => ⟨.nothing hnew ?_, rfl⟩, fun hnone => ?_⟩
    · rintro i ⟨e, he, -⟩
      cases he
    · have hhead := hnone _ (SplitFrame.mem_packets.mpr (Or.inl rfl))
      cases hhead
  exact ((Machine.run_inv_along following_step hstart hfair hrun).done hall).2

end Following

/-! ### The packets that the sender sends -/

theorem sendPacket_some (s : UdpSender) (packetType : PacketType) (payload : List UInt8)
    (timestampMs : UInt32) :
    ∃ s' p, s.sendPacket packetType payload (some timestampMs) = (.ok (), s', [p]) ∧
      p.header.packetType = packetType ∧ p.header.timestampMs = timestampMs ∧
      p.payload = payload :=
  ⟨_, _, rfl, rfl, rfl, rfl⟩

theorem media_header {header : FrameHeader} (ht : p.header.packetType = .frameHeader)
    (hdec : FrameHeader.decode p.payload = .ok header) :
    p.media = some (.header header p.header.timestampMs) := by
  rw [Packet.media, ht]
  simp only [hdec]

theorem media_chunk {chunk : FrameChunk} (ht : p.header.packetType = .frameChunk)
    (hdec : FrameChunk.decode p.payload = .ok chunk) : p.media = some (.chunk chunk) := by
  rw [Packet.media, ht]
  simp only [hdec]

theorem media_other (hheader : p.header.packetType ≠ .frameHeader)
    (hchunk : p.header.packetType ≠ .frameChunk) : p.media = none := by
  unfold Packet.media
  split
  · contradiction
  · contradiction
  · rfl

theorem media_sendChunks (frameId : UInt32) (send : ℕ → Option UInt32)
    (pieces : List (List UInt8)) (index : ℕ) (s : UdpSender)
    (hsent : ∀ i ≤ index + pieces.length, (send i).isSome)
    (hindex : index + pieces.length ≤ maxChunksPerFrame.toNat)
    (hpieces : ∀ piece ∈ pieces, piece.length ≤ maxVideoChunkBytes) :
    ∃ s' out, s.sendChunks frameId send index pieces = (.ok (), s', out) ∧
      out.filterMap Packet.media =
        (pieces.zipIdx index).map fun e => .chunk ⟨frameId, UInt16.ofNat e.2, e.1⟩ := by
  induction pieces generalizing index s with
  | nil => exact ⟨s, [], rfl, rfl⟩
  | cons bytes rest ih =>
    obtain ⟨hbytes, hrest⟩ := List.forall_mem_cons.mp hpieces
    rw [List.length_cons] at hsent hindex
    obtain ⟨timestampMs, ht⟩ := Option.isSome_iff_exists.mp (hsent (index + 1) (by omega))
    obtain ⟨s₁, p, hp, htype, -, hpayload⟩ := sendPacket_some s .frameChunk
      (FrameChunk.toBytes ⟨frameId, UInt16.ofNat index, bytes⟩) timestampMs
    obtain ⟨s₂, out, hchunks, hout⟩ := ih (index + 1) s₁ (fun i hi => hsent i (by omega))
      (by omega) hrest
    have hlt : UInt16.ofNat index < maxChunksPerFrame := by
      have hmax : maxChunksPerFrame.toNat = 8192 := rfl
      have hto : (UInt16.ofNat index).toNat = index := Nat.mod_eq_of_lt (by omega)
      rw [UInt16.lt_iff_toNat_lt, hto]
      omega
    have hdec : FrameChunk.decode p.payload = .ok ⟨frameId, UInt16.ofNat index, bytes⟩ := by
      rw [hpayload]
      exact FrameChunk.decode_toBytes_of_le hlt hbytes
    refine ⟨s₂, p :: out, ?_, ?_⟩
    · simp only [UdpSender.sendChunks, ht, hp, hchunks, List.singleton_append]
    · rw [List.filterMap_cons_some (media_chunk htype hdec), hout, List.zipIdx_cons,
        List.map_cons]

/-- The frame as it is cut. -/
def split (header : FrameHeader) (frame : VideoFrame)
    (hchunks : header.totalChunks.toNat
      = (Chunks.chunks senderMaxVideoChunkBytes frame.data).length)
    (hpos : 0 < Chunks.count senderMaxVideoChunkBytes frame.data.length)
    (hle : Chunks.count senderMaxVideoChunkBytes frame.data.length ≤ maxChunksPerFrame.toNat)
    (hsize : header.totalSize.toNat = frame.data.length)
    (hbytes : frame.data.length ≤ maxFrameBytes.toNat) : SplitFrame where
  header
  pieces := Chunks.chunks senderMaxVideoChunkBytes frame.data
  chunks_eq := hchunks
  chunks_pos := by rwa [Chunks.length_chunks]
  chunks_le := by rwa [Chunks.length_chunks]
  size_eq := by rw [Chunks.flatten_chunks (by decide), hsize]
  size_pos := by
    rw [UInt32.lt_iff_toNat_lt, hsize]
    rcases Nat.eq_zero_or_pos frame.data.length with hzero | hlen
    · rw [hzero] at hpos
      exact absurd hpos (by decide)
    · exact hlen
  size_le := by rwa [UInt32.le_iff_toNat_le, hsize]

theorem media_sendFrame {s : UdpSender} {width height : UInt32} {frame : VideoFrame}
    {header : FrameHeader} {encodedHeader : List UInt8}
    (h : s.frameHeader width height frame = .ok (header, encodedHeader))
    (hle : Chunks.count senderMaxVideoChunkBytes frame.data.length ≤ maxChunksPerFrame.toNat)
    (sessionOrigin sendAt : ℕ) {send : ℕ → Option UInt32}
    (hsent : ∀ i ≤ Chunks.count senderMaxVideoChunkBytes frame.data.length, (send i).isSome) :
    ∃ timestampMs,
      (s.sendFrame width height frame sessionOrigin sendAt send).2.2.filterMap Packet.media =
        .header header timestampMs ::
          (Chunks.chunks senderMaxVideoChunkBytes frame.data).zipIdx.map
            fun e => .chunk ⟨header.frameId, UInt16.ofNat e.2, e.1⟩ := by
  obtain ⟨hdec, -⟩ := UdpSender.frameHeader_spec h
  obtain ⟨timestampMs, ht⟩ := Option.isSome_iff_exists.mp (hsent 0 (Nat.zero_le _))
  obtain ⟨s₁, p, hp, htype, hstamp, hpayload⟩ := sendPacket_some
    { s with frameId := header.frameId } .frameHeader encodedHeader timestampMs
  have hlen := Chunks.length_chunks senderMaxVideoChunkBytes frame.data
  obtain ⟨s₂, out, hchunks, hout⟩ := media_sendChunks header.frameId send
    (Chunks.chunks senderMaxVideoChunkBytes frame.data) 0 s₁
    (fun i hi => hsent i (by omega)) (by omega)
    (fun piece hpiece => (Chunks.length_le_of_mem hpiece).trans (by decide))
  refine ⟨timestampMs, ?_⟩
  simp only [UdpSender.sendFrame, h, ht, hp, hchunks]
  rw [List.filterMap_append, List.filterMap_append, hout,
    List.filterMap_cons_some (media_header htype (hpayload ▸ hdec)), hstamp]
  -- the time stamps are not media
  have hping : ∀ payload sent, (s₂.sendPacket .ping payload sent).2.2.filterMap Packet.media = [] := by
    intro payload sent
    refine List.filterMap_eq_nil_iff.mpr fun q hq => ?_
    have htype := (UdpSender.mem_sendPacket hq).1
    exact media_other (by simp [htype]) (by simp [htype])
  rw [hping, List.append_nil]
  rfl

/-- **The round trip.**  A frame of 1 to 8192 chunks is sent, and its packets
come to any assembler in any order and any number of times, among any other
packets.  If it is in time, there is room for it and nothing makes it useless,
then once all of them have come it has been handed out exactly once, with its
bytes, its key flag and its dimensions up to 65535. -/
theorem round_trip (sender : UdpSender) (width height : UInt32) (frame : VideoFrame)
    (sessionOrigin sendAt : ℕ) (send : ℕ → Option UInt32)
    (hpos : 1 ≤ Chunks.count senderMaxVideoChunkBytes frame.data.length)
    (hle : Chunks.count senderMaxVideoChunkBytes frame.data.length ≤ 8192)
    (hsent : ∀ i ≤ Chunks.count senderMaxVideoChunkBytes frame.data.length, (send i).isSome)
    (calls : List FrameAssembler.Call) (arrivals : List (MediaPacket × ℕ)) {x : Reception} :
    let own := (sender.sendFrame width height frame sessionOrigin sendAt
      send).2.2.filterMap Packet.media
    let id := sender.frameId + 1
    let s := calls.foldl FrameAssembler.after .new
    FrameAssembler.Absent id s → Machine.Along step (Fair own id) ⟨s, [], []⟩ arrivals →
    Machine.run step ⟨s, [], []⟩ arrivals = some x → Delivered own x →
      ∃ f, completedOf id x = [f] ∧ f.data = frame.data ∧
        f.header.isKeyFrame = frame.isKeyFrame ∧
        f.header.width.toNat = min width.toNat 65535 ∧
        f.header.height.toNat = min height.toNat 65535 := by
  intro own id s hnew hfair hrun hall
  obtain ⟨header, encodedHeader, hheader, hwidth, hheight, hsize, hbytes⟩ :=
    sender.frameHeader_of_le width height hle
  obtain ⟨-, hid, hkey, hchunks, -⟩ := UdpSender.frameHeader_spec hheader
  obtain ⟨timestampMs, hown⟩ := media_sendFrame hheader hle sessionOrigin sendAt hsent
  have hkeyed : s.Holds (fun _ => True) (fun _ => True) :=
    List.foldlRecOn calls FrameAssembler.after FrameAssembler.holds_new
      fun s hs call _ => holds_after hs call
  let F := split header frame hchunks hpos hle hsize hbytes
  have howner : own = F.packets timestampMs := hown
  have hsame : id = F.header.frameId := hid.symm
  clear_value own id
  subst howner hsame
  refine ⟨assembled F timestampMs, completed_of_delivered hkeyed hnew hfair hrun hall, ?_, hkey,
    ?_, ?_⟩
  · exact Chunks.flatten_chunks (by decide) frame.data
  · show header.width.toNat = _
    rw [hwidth]
    exact Nat.mod_eq_of_lt (Nat.lt_of_le_of_lt (Nat.min_le_right _ _) (by decide))
  · show header.height.toNat = _
    rw [hheight]
    exact Nat.mod_eq_of_lt (Nat.lt_of_le_of_lt (Nat.min_le_right _ _) (by decide))

/-- The chunk of a small frame comes twice, and its header last. -/
theorem round_trip_header_last :
    ∃ x f, Machine.run step ⟨.new, [], []⟩
        [(.chunk ⟨1, 0, [7]⟩, 0), (.chunk ⟨1, 0, [7]⟩, 1),
          (.header ⟨1, 65535, 1080, true, 1, 1⟩ 5, 2)] = some x ∧
      completedOf 1 x = [f] ∧ f.data = [7] ∧ f.header.isKeyFrame = true ∧
      f.header.width.toNat = 65535 ∧ f.header.height.toNat = 1080 := by
  obtain ⟨f, hf⟩ := round_trip .new 70000 1080 ⟨[7], true, 0, 0, 0⟩ 0 0 (fun _ => some 5)
    (by decide) (by decide) (fun _ _ => rfl) []
    [(.chunk ⟨1, 0, [7]⟩, 0), (.chunk ⟨1, 0, [7]⟩, 1), (.header ⟨1, 65535, 1080, true, 1, 1⟩ 5, 2)]
    ⟨rfl, rfl⟩ (by decide) rfl (by decide)
  exact ⟨_, f, rfl, hf⟩

/-- The header of the next frame, a key frame, comes between the header and the
chunk of a frame: all has come, in time and without duplicates, and the frame is
lost.  (Nor do its dimensions fit the header.) -/
theorem superseded_frame_lost :
    let first := UdpSender.new.sendFrame 70000 1080 ⟨[7], false, 0, 0, 0⟩ 0 0 fun _ => some 0
    let second := first.2.1.sendFrame 70000 1080 ⟨[8], true, 0, 0, 0⟩ 0 0 fun _ => some 0
    let own := first.2.2.filterMap Packet.media
    let other := second.2.2.filterMap Packet.media
    let arrivals := (own.take 1 ++ other.take 1 ++ own.drop 1).map fun m => (m, 0)
    ∃ x, Machine.run step ⟨.new, [], []⟩ arrivals = some x ∧ Delivered own x ∧
      x.completed = [] ∧ own.head? = some (.header ⟨1, 65535, 1080, false, 1, 1⟩ 0) := by
  exact ⟨_, rfl, by decide⟩

end RoundTrip
end MahoRD

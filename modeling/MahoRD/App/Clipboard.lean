/-
MahoRD/App/Clipboard.lean

Clipboard text (`maho-app/src/clipboard.rs`, and the echo suppressor of the
Windows host, `maho-host/src/windows_logic.rs`).

Both sides poll their clipboard and send what the user has copied; both write
what they receive into it.  A `ClipboardSynchronizer` on the client and a
`ClipboardEchoSuppressor` on the host keep a received text from being sent back.
They recognise their own write by the change count, and a text that the other
side has already by its hash.  The hash is a parameter (`Hash` of the standard
library, FNV-1a on the host); the results are for a hash without collisions.

The change count belongs to the platform: a change by the user has a count that
was not there before in the session.
-/
import MahoRD.Lib.Exchange
import MahoRD.Proto.Control

namespace MahoRD

open Exchange

inductive ClipboardDecision
  | unchanged | suppressEcho | duplicate | concealed | empty | oversized
  | send (text : String)

/-- The text that is sent on the decision. -/
def ClipboardDecision.sent : ClipboardDecision → Option String
  | send text => some text
  | _ => none

/-- `CONCEALED_CLIPBOARD_TYPES`. -/
def concealedClipboardTypes : List String :=
  ["org.nspasteboard.ConcealedType", "org.nspasteboard.TransientType"]

def isConcealed (types : List String) : Bool := types.any fun ty => concealedClipboardTypes.contains ty

structure ClipboardSynchronizer (η : Type) where
  lastChangeCount : UInt64
  lastWrittenChangeCount : Option UInt64
  lastTextHash : Option η

namespace ClipboardSynchronizer

variable {η : Type} [DecidableEq η] (textHash : String → η)

def new (initialChangeCount : UInt64) : ClipboardSynchronizer η := ⟨initialChangeCount, none, none⟩

def recordRemoteWrite (_ : ClipboardSynchronizer η) (text : String)
    (resultingChangeCount : UInt64) : ClipboardSynchronizer η :=
  ⟨resultingChangeCount, some resultingChangeCount, some (textHash text)⟩

def poll (s : ClipboardSynchronizer η) (changeCount : UInt64) (text : String)
    (types : List String) : ClipboardDecision × ClipboardSynchronizer η :=
  if s.lastWrittenChangeCount = some changeCount then
    (.suppressEcho, { s with lastWrittenChangeCount := none, lastChangeCount := changeCount })
  else if changeCount = s.lastChangeCount then (.unchanged, s)
  else
    let s := { s with lastChangeCount := changeCount }
    if isConcealed types then (.concealed, s)
    else if text.isEmpty then (.empty, s)
    else
      let hash := textHash text
      if s.lastTextHash = some hash then (.duplicate, s)
      else if text.utf8ByteSize > maxClipboardTextBytes then (.oversized, s)
      else (.send text, { s with lastTextHash := some hash })

end ClipboardSynchronizer

/-- What a clipboard holds, but for its count. -/
structure ClipboardContent where
  text : Option String
  types : List String

/-- The text that there is to send, if any: not concealed, not empty and within the limit. -/
def ClipboardContent.offered (c : ClipboardContent) : Option String :=
  let text := c.text.getD ""
  if isConcealed c.types then none
  else if text.isEmpty ∨ text.utf8ByteSize > maxClipboardTextBytes then none
  else some text

namespace ClipboardSynchronizer

variable {η : Type} [DecidableEq η] (textHash : String → η)

/-- `ClipboardMonitor`: `apply_remote` records what it has written; `poll_once` polls the snapshot,
and what it decides to send is sent. -/
def monitor : Guard UInt64 ClipboardContent String (ClipboardSynchronizer η) where
  record s count text := s.recordRemoteWrite textHash text count
  poll s count c :=
    let (decision, s) := s.poll textHash count (c.text.getD "") c.types
    (decision.sent, s)

/-- The counts it remembers are in `K`, and the hash is that of the text last exchanged. -/
structure Knows (s : ClipboardSynchronizer η) (K : Set UInt64) (last : Option String) : Prop where
  change : s.lastChangeCount ∈ K
  written : ∀ count, s.lastWrittenChangeCount = some count → count ∈ K
  hash : s.lastTextHash = last.map textHash

def Quiet (s : ClipboardSynchronizer η) (count : UInt64) : Prop := s.lastChangeCount = count

theorem poll_fresh {s : ClipboardSynchronizer η} {count : UInt64} {c : ClipboardContent}
    {last : Option String} (hinj : Function.Injective textHash)
    (hwritten : s.lastWrittenChangeCount ≠ some count) (hchange : count ≠ s.lastChangeCount)
    (hhash : s.lastTextHash = last.map textHash) :
    (monitor textHash).poll s count c = (passOn last c.offered,
      { s with
        lastChangeCount := count
        lastTextHash := ((passOn last c.offered).or last).map textHash }) := by
  have hlast (text : String) : last.map textHash = some (textHash text) ↔ last = some text := by
    simp [Option.map_eq_some_iff, hinj.eq_iff]
  simp only [monitor, poll, ClipboardContent.offered, if_neg hwritten, if_neg hchange, hhash, hlast]
  generalize c.text.getD "" = text
  by_cases hconcealed : isConcealed c.types = true
  · simp [hconcealed, passOn, ClipboardDecision.sent]
  by_cases hempty : text.isEmpty = true
  · simp [hconcealed, hempty, passOn, ClipboardDecision.sent]
  by_cases hdup : last = some text
  · by_cases hsize : text.utf8ByteSize > maxClipboardTextBytes
    · simp [hconcealed, hempty, hdup, hsize, passOn, ClipboardDecision.sent]
    · simp [hconcealed, hempty, hdup, hsize, passOn, ClipboardDecision.sent]
  by_cases hsize : text.utf8ByteSize > maxClipboardTextBytes
  · simp [hconcealed, hempty, hdup, hsize, passOn, ClipboardDecision.sent]
  · simp [hconcealed, hempty, hdup, hsize, passOn, ClipboardDecision.sent, Ne.symm hdup]

theorem monitor_lawful (hinj : Function.Injective textHash) :
    Lawful (monitor textHash) ClipboardContent.offered (Knows textHash) Quiet where
  record {s K last count} text h :=
    ⟨⟨.inl rfl, fun count' hcount' => .inl (Option.some.inj hcount').symm, rfl⟩, rfl⟩
  quiet {s K last count} c h hquiet := by
    obtain rfl : s.lastChangeCount = count := hquiet
    simp only [monitor, poll]
    split
    next hsuppress =>
      exact ⟨rfl, ⟨h.change, nofun, h.hash⟩, rfl⟩
    · exact ⟨rfl, h, rfl⟩
  fresh {s K last count} c h hnew := by
    have hwritten : s.lastWrittenChangeCount ≠ some count := fun hw => hnew (h.written count hw)
    have hchange : count ≠ s.lastChangeCount := fun hc => hnew (hc ▸ h.change)
    rw [poll_fresh textHash hinj hwritten hchange h.hash]
    exact ⟨rfl, ⟨.inl rfl, fun count' hw => .inr (h.written count' hw), rfl⟩, rfl⟩

/-- **Clipboard text goes once, and not back.**  In every run of the monitor: the text of the latest
remote write is sent only if another text was sent in between; a poll that sees a change of the user
for the first time sends its text if there is one to send and it is not the one last exchanged; and
no other poll sends anything. -/
theorem clipboard_in_step (hinj : Function.Injective textHash) {count : UInt64}
    {content : ClipboardContent} {as : List (Action UInt64 ClipboardContent String)}
    {w : World UInt64 ClipboardContent String (ClipboardSynchronizer η)}
    (h : Machine.run (step (monitor textHash)) (start (new count) count content) as = some w) :
    (∀ before between after text genuine c,
      w.history =
        before ++ .received text :: (between ++ .polled genuine c (some text) :: after) →
      (∀ text', .received text' ∉ between) →
      ∃ genuine' c' text', .polled genuine' c' (some text') ∈ between ∧ text' ≠ text) ∧
    ∀ before genuine c sent after, w.history = before ++ .polled genuine c sent :: after →
      (genuine = true → ∀ text, c.offered = some text →
        sent = if lastExchanged before = some text then none else some text) ∧
      (genuine = true → c.offered = none → sent = none) ∧
      (genuine = false → sent = none) := by
  have hknows : Knows textHash (new count) {count} none := ⟨rfl, nofun, rfl⟩
  have hfaithful := run_faithful (monitor_lawful textHash hinj) hknows rfl h
  refine ⟨?_, ?_⟩
  · intro before between after text genuine c hhistory hlatest
    exact Faithful.no_echo (hhistory ▸ hfaithful) hlatest
  · intro before genuine c sent after hhistory
    have hsent : sent = if genuine = true then passOn (lastExchanged before) c.offered else none :=
      hfaithful before (.polled genuine c sent) after hhistory
    refine ⟨fun hgenuine text hoffered => ?_, fun hgenuine hoffered => ?_, fun hgenuine => ?_⟩
    · rw [hsent, if_pos hgenuine, passOn, hoffered]
      simp only [eq_comm]
    · rw [hsent, if_pos hgenuine, passOn, hoffered]
      split <;> rfl
    · rw [hsent, if_neg (by simp [hgenuine])]

/-- A plain text. -/
def plain (text : String) : ClipboardContent := ⟨some text, []⟩

/-- The user copies another text and then the received one: both are sent. -/
theorem clipboard_in_step_other :
    (∃ genuine c text, Event.polled genuine c (some text) ∈
        ([.polled false (plain "remote") none, .polled true (plain "other") (some "other")] :
          List (Event ClipboardContent String)) ∧ text ≠ "remote") ∧
    some "remote" =
      if lastExchanged ([.received "remote", .polled false (plain "remote") none,
        .polled true (plain "other") (some "other")] : List (Event ClipboardContent String)) =
          some "remote" then none
      else some "remote" := by
  have hrun : Machine.run (step (monitor id)) (start (new 1) 1 ⟨none, []⟩)
      [.receive 2 (plain "remote") "remote", .poll, .change 3 (plain "other"), .poll,
        .change 4 (plain "remote"), .poll] =
      some ⟨⟨4, none, some "remote"⟩, 4, plain "remote", false, [4, 3, 2, 1],
        [.received "remote", .polled false (plain "remote") none,
          .polled true (plain "other") (some "other"),
          .polled true (plain "remote") (some "remote")]⟩ := by
    rfl
  have h := clipboard_in_step id Function.injective_id hrun
  exact ⟨h.1 [] [.polled false (plain "remote") none, .polled true (plain "other") (some "other")]
      [] "remote" true (plain "remote") rfl (by simp),
    (h.2 [.received "remote", .polled false (plain "remote") none,
      .polled true (plain "other") (some "other")] true (plain "remote") (some "remote") []
      rfl).1 rfl "remote" (by decide)⟩

/-- The user copies the received text again, behind a concealed one that was seen: nothing is
sent. -/
theorem recopied_text_stays : ¬ ∀ {count : UInt64} {content : ClipboardContent}
    {as : List (Action UInt64 ClipboardContent String)}
    {w : World UInt64 ClipboardContent String (ClipboardSynchronizer String)},
    Machine.run (step (monitor id)) (start (new count) count content) as = some w →
    ∀ before c sent after text, w.history = before ++ .polled true c sent :: after →
      c.offered = some text → sent = some text := by
  intro h
  have hrun : Machine.run (step (monitor id)) (start (new 1) 1 ⟨none, []⟩)
      [.receive 2 (plain "remote") "remote", .poll,
        .change 3 ⟨some "secret", ["org.nspasteboard.ConcealedType"]⟩, .poll,
        .change 4 (plain "remote"), .poll] =
      some ⟨⟨4, none, some "remote"⟩, 4, plain "remote", false, [4, 3, 2, 1],
        [.received "remote", .polled false (plain "remote") none,
          .polled true ⟨some "secret", ["org.nspasteboard.ConcealedType"]⟩ none,
          .polled true (plain "remote") none]⟩ := by
    rfl
  exact nomatch h hrun [.received "remote", .polled false (plain "remote") none,
    .polled true ⟨some "secret", ["org.nspasteboard.ConcealedType"]⟩ none]
    (plain "remote") none [] "remote" rfl (by decide)

end ClipboardSynchronizer
end MahoRD

/-
MahoRD/App/RequestReading.lean

When a request is read the same whatever the segmentation of its stream.  The search for the
end of the headers prefers CRLF CRLF to LF LF, but only in what has arrived: a blank line of
the second kind before the first of the first kind is taken by some segmentations and not by
others.  `Consistent` says that there is none, or that the headers are refused either way.
-/
import MahoRD.App.AgentRequest

namespace MahoRD.Agent

open Search

/-- What fits into the buffer. -/
def window (data : List UInt8) : List UInt8 := data.take bufferLen

def Splits (reads : List (List UInt8)) (data : List UInt8) : Prop :=
  (∀ read ∈ reads, read ≠ []) ∧ reads.flatten = data

/-- The bytes of the request, or the kind of the error. -/
def answer : Except RequestError (List UInt8 × Option Head) → Except ErrorKind (List UInt8)
  | .ok (buf, _) => .ok buf
  | .error e => .error e.kind

/-- However the stream is split, the request is the same, it is taken apart where it was
delimited, and nothing panics. -/
structure Uniform (ending : StreamEnd) (data : List UInt8) : Prop where
  same : ∀ reads reads', Splits reads data → Splits reads' data →
    answer (readRequest ending reads) = answer (readRequest ending reads')
  empty : ∀ reads buf, Splits reads data → readRequest ending reads = .ok (buf, none) → buf = []
  taken : ∀ reads buf head, Splits reads data → readRequest ending reads = .ok (buf, some head) →
    bodyLength (buf.take head.headerEnd) = .ok head.length ∧ buf.length = head.total ∧
      (handleConnection (.ok buf) = .answered 400 "Bad Request" ∨
        ∃ method path, handleConnection (.ok buf) =
          .request method path (buf.take head.headerEnd) (buf.drop head.bodyStart))
  safe : ∀ reads, Splits reads data →
    handleConnection ((readRequest ending reads).map Prod.fst) ≠ .panicked

/-- A blank line LF LF that stands before the first CRLF CRLF does not matter: the headers up to
either are refused with errors of one kind. -/
def Consistent (data : List UInt8) : Prop :=
  ∀ l c, find lflf (window data) = some l → find crlfcrlf (window data) = some c → l < c →
    ∃ e e', bodyLength ((window data).take l) = .error e ∧
      bodyLength ((window data).take c) = .error e' ∧ e.kind = e'.kind

/-! ### Lines -/

namespace Text

theorem trim_carriageReturn (t : Text) : trim (t ++ [carriageReturn]) = trim t := by
  have hcr : isWhitespace carriageReturn = true := by decide
  rw [trim, trim, List.dropWhile_append]
  split
  next h => rw [List.isEmpty_iff.mp h]; rfl
  · rw [List.reverse_append, List.reverse_singleton, List.singleton_append, List.dropWhile_cons,
      if_pos hcr]

theorem splitOnce_carriageReturn (t : Text) :
    splitOnce (ascii ":") (t ++ [carriageReturn]) =
      (splitOnce (ascii ":") t).map fun p => (p.1, p.2 ++ [carriageReturn]) := by
  induction t with
  | nil => rfl
  | cons c t ih =>
    rw [List.cons_append, splitOnce, splitOnce, ih]
    split
    · rfl
    · cases splitOnce (ascii ":") t <;> rfl

theorem linesFrom_append (line t u : Text) :
    linesFrom line (t ++ newline :: u) = linesFrom line (t ++ [newline]) ++ linesFrom [] u := by
  induction t generalizing line with
  | nil => simp [linesFrom]
  | cons c t ih =>
    rw [List.cons_append, List.cons_append, linesFrom, linesFrom]
    split
    · rw [ih, List.cons_append]
    · exact ih _

theorem linesFrom_newline (line t : Text) :
    ∃ before last, linesFrom line (t ++ [newline]) = before ++ [stripCarriageReturn last] ∧
      linesFrom line t = before ++ if last = [] then [] else [last] := by
  induction t generalizing line with
  | nil => exact ⟨[], line, by simp [linesFrom], rfl⟩
  | cons c t ih =>
    rw [List.cons_append, linesFrom, linesFrom]
    split
    · obtain ⟨before, last, h, h'⟩ := ih []
      exact ⟨stripCarriageReturn line :: before, last, by rw [h]; rfl, by rw [h']; rfl⟩
    · exact ih _

theorem linesFrom_ne_nil {line t : Text} (h : line ≠ [] ∨ t ≠ []) : linesFrom line t ≠ [] := by
  induction t generalizing line with
  | nil =>
    rw [linesFrom, if_neg (h.resolve_right (fun h => h rfl))]
    exact List.cons_ne_nil _ _
  | cons c t ih =>
    rw [linesFrom]
    split
    · exact List.cons_ne_nil _ _
    · exact ih (.inl (by simp))

end Text

theorem scanHeader_strip (contentLength : Option ℕ) (line : Text) :
    scanHeader contentLength (Text.stripCarriageReturn line) = scanHeader contentLength line := by
  rw [Text.stripCarriageReturn]
  split
  next h =>
    obtain ⟨line, rfl⟩ := List.getLast?_eq_some_iff.mp h
    rw [List.dropLast_concat, scanHeader, scanHeader, Text.splitOnce_carriageReturn]
    cases Text.splitOnce (ascii ":") line with
    | none => rfl
    | some p => simp only [Option.map_some, Text.trim_carriageReturn]
  · rfl

theorem scanHeaders_blank (contentLength : Option ℕ) (before after : List Text) :
    ∃ e, scanHeaders contentLength (before ++ [] :: after) = .error e ∧
      ∀ cl, scanHeaders contentLength before = .ok cl → e.kind = .invalidData := by
  induction before generalizing contentLength with
  | nil => exact ⟨.invalidHeader, rfl, fun _ _ => rfl⟩
  | cons line before ih =>
    rw [List.cons_append, scanHeaders, scanHeaders]
    cases scanHeader contentLength line with
    | ok cl => exact ih cl
    | error e => exact ⟨e, rfl, nofun⟩

theorem scanHeaders_strip {contentLength : Option ℕ} {before : List Text} {last : Text} :
    scanHeaders contentLength (before ++ [Text.stripCarriageReturn last]) =
      scanHeaders contentLength (before ++ [last]) := by
  induction before generalizing contentLength with
  | nil => rw [List.nil_append, List.nil_append, scanHeaders, scanHeaders, scanHeader_strip]
  | cons line before ih =>
    rw [List.cons_append, List.cons_append, scanHeaders, scanHeaders]
    cases scanHeader contentLength line with
    | ok cl => exact ih
    | error e => rfl

theorem lines_blank (cs es : Text) :
    ∃ before last, Text.lines (cs ++ Text.newline :: Text.newline :: es) =
        before ++ Text.stripCarriageReturn last :: [] :: Text.lines es ∧
      Text.lines cs = before ++ if last = [] then [] else [last] := by
  obtain ⟨before, last, hended, hopen⟩ := Text.linesFrom_newline [] cs
  refine ⟨before, last, ?_, hopen⟩
  rw [Text.lines, Text.linesFrom_append, hended, List.append_assoc]
  rfl

theorem scanHeaders_lines_blank (cs es : Text) :
    ∃ e, scanHeaders none ((Text.lines (cs ++ Text.newline :: Text.newline :: es)).drop 1) =
        .error e ∧
      ∀ cl, scanHeaders none ((Text.lines cs).drop 1) = .ok cl → e.kind = .invalidData := by
  obtain ⟨before, last, hblank, hopen⟩ := lines_blank cs es
  rw [hblank, hopen]
  cases before with
  | nil =>
    -- the first line is the request's
    obtain ⟨e, he, hkind⟩ := scanHeaders_blank none [] (Text.lines es)
    exact ⟨e, he, fun _ _ => hkind none rfl⟩
  | cons first before =>
    rw [List.cons_append, List.cons_append, List.drop_succ_cons, List.drop_succ_cons,
      List.drop_zero, List.drop_zero]
    by_cases hlast : last = []
    · obtain ⟨e, he, hkind⟩ := scanHeaders_blank none before ([] :: Text.lines es)
      rw [hlast, if_pos rfl, List.append_nil]
      exact ⟨e, he, hkind⟩
    · obtain ⟨e, he, hkind⟩ := scanHeaders_blank none
        (before ++ [Text.stripCarriageReturn last]) (Text.lines es)
      rw [scanHeaders_strip] at hkind
      rw [List.append_assoc] at he
      rw [if_neg hlast]
      exact ⟨e, he, hkind⟩

/-- Headers with a blank line in them are refused, as invalid if they are fine up to it. -/
theorem bodyLength_blank (x z : List UInt8) :
    ∃ e, bodyLength (x ++ lflf ++ z) = .error e ∧
      ∀ n, bodyLength x = .ok n → e.kind = .invalidData := by
  cases hy : Utf8.fromUtf8 (x ++ lflf ++ z) with
  | none => exact ⟨.invalidUtf8, by rw [bodyLength, hy], fun _ _ => rfl⟩
  | some text =>
    have hascii : (0x0a : UInt8) < 0x80 := by decide
    have hsplit : x ++ lflf ++ z = x ++ 0x0a :: 0x0a :: z := by simp [lflf]
    rw [hsplit] at hy ⊢
    obtain ⟨cs, rest, hx, hrest, rfl⟩ := Utf8.fromUtf8_ascii hascii hy
    obtain ⟨nothing, es, hnothing, -, rfl⟩ := 
      Utf8.fromUtf8_ascii hascii (show Utf8.fromUtf8 ([] ++ 0x0a :: z) = some rest from hrest)
    obtain rfl : [] = nothing := Option.some.inj hnothing
    obtain ⟨e, he, hkind⟩ := scanHeaders_lines_blank cs es
    refine ⟨e, ?_, fun n hn => ?_⟩
    · rw [bodyLength, hy]
      exact congrArg (Except.map (·.getD 0)) he
    · rw [bodyLength, hx] at hn
      cases hscan : scanHeaders none ((Text.lines cs).drop 1) with
      | ok cl => exact hkind cl hscan
      | error e' =>
        have hmap : (scanHeaders none ((Text.lines cs).drop 1)).map (·.getD 0) = .ok n := hn
        rw [hscan] at hmap
        cases hmap

/-! ### The delimiter -/

variable {i n : ℕ}

theorem delimiter_eq_some {bytes : List UInt8} :
    delimiter bytes = some (i, n) ↔
      (n = 4 ∧ find crlfcrlf bytes = some i) ∨
        (n = 2 ∧ find crlfcrlf bytes = none ∧ find lflf bytes = some i) := by
  rw [delimiter]
  cases find crlfcrlf bytes with
  | none =>
    cases find lflf bytes with
    | none => simp
    | some j => simp [and_comm, eq_comm]
  | some j => simp [and_comm, eq_comm]

theorem delimiter_le {bytes : List UInt8} (h : delimiter bytes = some (i, n)) :
    i + n ≤ bytes.length := by
  rcases delimiter_eq_some.mp h with ⟨rfl, hfind⟩ | ⟨rfl, -, hfind⟩
  · exact (find_eq_some hfind).1
  · exact (find_eq_some hfind).1

theorem lt_of_find {bytes : List UInt8} {l c : ℕ} (hl : find lflf bytes = some l)
    (hc : find crlfcrlf bytes = some c) (hlt : l < c + 2) : l < c := by
  by_contra hle
  have hl0 := getElem?_of_find hl (j := 0) (by decide)
  have hl1 := getElem?_of_find hl (j := 1) (by decide)
  have hc0 := getElem?_of_find hc (j := 0) (by decide)
  have hc2 := getElem?_of_find hc (j := 2) (by decide)
  rcases (by omega : l = c ∨ l = c + 1) with rfl | rfl
  · cases hl0.symm.trans hc0
  · cases hl1.symm.trans hc2

/-- What more bytes can change: a CRLF CRLF after the blank line that has been found. -/
theorem delimiter_of_prefix {xs ys : List UInt8} (hxs : xs <+: ys)
    (h : delimiter xs = some (i, n)) :
    delimiter ys = some (i, n) ∨
      (n = 2 ∧ find lflf ys = some i ∧ ∃ c, find crlfcrlf ys = some c ∧ i < c) := by
  rcases delimiter_eq_some.mp h with ⟨rfl, hfind⟩ | ⟨rfl, hnone, hfind⟩
  · exact .inl (delimiter_eq_some.mpr (.inl ⟨rfl, find_extend hxs hfind⟩))
  · have hl := find_extend hxs hfind
    cases hc : find crlfcrlf ys with
    | none => exact .inl (delimiter_eq_some.mpr (.inr ⟨rfl, hc, hl⟩))
    | some c =>
      refine .inr ⟨rfl, hl, c, rfl, lt_of_find hl hc ?_⟩
      by_contra hge
      have hlen : i + 2 ≤ xs.length := (find_eq_some hfind).1
      have hfound := find_restrict hxs hc (show c + 4 ≤ xs.length by omega)
      cases hnone.symm.trans hfound

/-! ### The loop -/

section Loop

variable {ending : StreamEnd} {data used : List UInt8} {head : Head} {reads : List (List UInt8)}

theorem readHead_none (h : delimiter used = none) : readHead used = .ok none := by
  rw [readHead, h]

variable {i n : ℕ}

theorem readHead_some (h : delimiter used = some (i, n)) :
    readHead used =
      match bodyLength (used.take i) with
      | .ok length =>
        if length > bufferLen - (i + n) then .error .tooLarge else .ok (some ⟨i, n, length⟩)
      | .error e => .error e := by
  have hread := readHead.eq_1 used
  simp only [h] at hread
  exact hread

theorem readHead_eq_ok_some (h : readHead used = .ok (some head)) :
    delimiter used = some (head.headerEnd, head.delimiterLen) ∧
      bodyLength (used.take head.headerEnd) = .ok head.length ∧
      head.length ≤ bufferLen - head.bodyStart := by
  cases hdelimiter : delimiter used with
  | none =>
    rw [readHead_none hdelimiter] at h
    cases h
  | some p =>
    obtain ⟨i, n⟩ := p
    rw [readHead_some hdelimiter] at h
    split at h
    next length hlength =>
      split at h
      · cases h
      next hle =>
        cases h
        exact ⟨rfl, hlength, Nat.not_lt.mp hle⟩
    · cases h

theorem readHead_ne_none (h : delimiter used = some (i, n)) :
    readHead used ≠ .ok none := by
  rw [readHead_some h]
  split
  · split <;> nofun
  · nofun

theorem total_le (h : readHead used = .ok (some head)) (hused : used.length ≤ bufferLen) :
    head.total ≤ bufferLen := by
  obtain ⟨hdelimiter, -, hle⟩ := readHead_eq_ok_some h
  have hstart := delimiter_le hdelimiter
  rw [Head.total]
  rw [Head.bodyStart] at hle ⊢
  omega

/-- What becomes of a stream whose head is complete. -/
def settle (ending : StreamEnd) (head : Head) (data : List UInt8) :
    Except RequestError (List UInt8 × Option Head) :=
  if head.total ≤ data.length then .ok (data.take head.total, some head) else ending.answer data

theorem settle_of_isPrefix (hused : used <+: data) (hle : head.total ≤ used.length) :
    settle ending head data = settle ending head used := by
  obtain ⟨rest, rfl⟩ := hused
  rw [settle, settle, if_pos hle, if_pos (by rw [List.length_append]; omega),
    List.take_append_of_le_length hle]

theorem append_take_isPrefix (used read : List UInt8) (rest : List UInt8) (n : ℕ) :
    used ++ read.take n <+: used ++ (read ++ rest) :=
  (List.prefix_append_right_inj used).mpr ((List.take_prefix _ _).trans (List.prefix_append _ _))

theorem finished_complete (hle : head.total ≤ used.length) :
    finished used (some head) = some (.ok (used.take head.total, some head)) := by
  simp only [finished, Option.filter_some, hle, decide_true, if_true]

theorem finished_incomplete {head : Option Head} (hhead : ∀ h ∈ head, used.length < h.total)
    (hused : used.length < bufferLen) : finished used head = none := by
  have hfilter : head.filter (·.total ≤ used.length) = none := by
    refine Option.filter_eq_none_iff.mpr fun h hh => ?_
    simpa using hhead h hh
  simp only [finished, hfilter, hused.ne, if_false]

theorem readLoop_some (htotal : head.total ≤ bufferLen) :
    readLoop ending used (some head) reads = settle ending head (used ++ reads.flatten) := by
  induction reads generalizing used with
  | nil =>
    rw [readLoop, List.flatten_nil, List.append_nil]
    by_cases hle : head.total ≤ used.length
    · rw [finished_complete hle, settle, if_pos hle]
    · rw [finished_incomplete (fun h hh => ?_) (by omega), settle, if_neg hle]
      cases hh
      omega
  | cons read reads ih =>
    rw [readLoop]
    by_cases hle : head.total ≤ used.length
    · rw [finished_complete hle, settle_of_isPrefix (List.prefix_append _ _) hle, settle, if_pos hle]
    · rw [finished_incomplete (fun h hh => ?_) (by omega)]
      · simp only [Option.map_some, Option.getD_some]
        rw [ih, List.flatten_cons]
        by_cases hfits : read.length ≤ head.total - used.length
        · rw [List.take_of_length_le hfits, List.append_assoc]
        · have hlen : (used ++ read.take (head.total - used.length)).length = head.total := by
            rw [List.length_append, List.length_take]
            omega
          rw [settle_of_isPrefix (List.prefix_append _ _) hlen.ge,
            settle_of_isPrefix (append_take_isPrefix used read reads.flatten _) hlen.ge]
      · cases hh
        omega

/-- What becomes of a stream that is not split. -/
def whole (ending : StreamEnd) (data : List UInt8) :
    Except RequestError (List UInt8 × Option Head) :=
  match readHead (window data) with
  | .ok (some head) => settle ending head data
  | .ok none => if data.length < bufferLen then ending.answer data else .error .tooLarge
  | .error e => .error e

/-- The same result, or errors of one kind. -/
def Agree (r r' : Except RequestError (List UInt8 × Option Head)) : Prop :=
  r = r' ∨ ∃ e e', r = .error e ∧ r' = .error e' ∧ e.kind = e'.kind

theorem window_eq (hlen : data.length ≤ bufferLen) : window data = data :=
  List.take_of_length_le hlen

theorem prefix_window (hpre : used <+: data) (hlen : used.length ≤ bufferLen) :
    used <+: window data := by
  rw [List.prefix_iff_eq_take] at hpre
  rw [window, hpre]
  refine List.prefix_of_prefix_length_le (List.take_prefix _ _) (List.take_prefix _ _) ?_
  rw [List.length_take, List.length_take]
  omega

theorem take_of_isPrefix {xs ys : List UInt8} (hxs : xs <+: ys) (hi : i ≤ xs.length) :
    ys.take i = xs.take i := by
  obtain ⟨rest, rfl⟩ := hxs
  exact List.take_append_of_le_length hi

theorem readHead_of_prefix {xs ys : List UInt8} (hxs : xs <+: ys)
    (h : delimiter xs = some (i, n)) (h' : delimiter ys = some (i, n)) :
    readHead ys = readHead xs := by
  have hi : i ≤ xs.length := by
    have hle := delimiter_le h
    omega
  rw [readHead_some h, readHead_some h', take_of_isPrefix hxs hi]

theorem whole_full (hpre : used <+: data) (hlen : used.length = bufferLen)
    (hnone : delimiter used = none) : whole ending data = .error .tooLarge := by
  have hwindow : window data = used := by
    rw [window, ← hlen]
    exact (List.prefix_iff_eq_take.mp hpre).symm
  have hdata := hpre.length_le
  simp only [whole, hwindow, readHead_none hnone]
  rw [if_neg (by omega)]

theorem finished_none_open (hlen : used.length < bufferLen) : finished used none = none := by
  simp only [finished, Option.filter_none, hlen.ne, if_false]

theorem finished_none_full (hlen : used.length = bufferLen) :
    finished used none = some (.error .tooLarge) := by
  simp only [finished, Option.filter_none, hlen, if_true]

/-- **The loop agrees with one look at all that fits**, if the stream is consistent. -/
theorem readLoop_none (hconsistent : Consistent (used ++ reads.flatten))
    (hlen : used.length ≤ bufferLen) (hnone : delimiter used = none) :
    Agree (readLoop ending used none reads) (whole ending (used ++ reads.flatten)) := by
  induction reads generalizing used with
  | nil =>
    refine .inl ?_
    rw [List.flatten_nil, List.append_nil, readLoop]
    rcases hlen.lt_or_eq with hlt | heq
    · rw [finished_none_open hlt]
      simp only [whole, window_eq hlen, readHead_none hnone, hlt, if_true]
    · rw [finished_none_full heq, whole_full List.prefix_rfl heq hnone]
  | cons read reads ih =>
    rcases hlen.lt_or_eq with hlt | heq
    · have hpre : used ++ read.take (bufferLen - used.length) <+:
          used ++ (read :: reads).flatten :=
        append_take_isPrefix used read reads.flatten _
      have hlen' : (used ++ read.take (bufferLen - used.length)).length ≤ bufferLen := by
        rw [List.length_append, List.length_take]
        omega
      -- either the whole read fits, or the buffer is full then
      have hfits : used ++ read.take (bufferLen - used.length) = used ++ read ∨
          (used ++ read.take (bufferLen - used.length)).length = bufferLen := by
        rcases Nat.lt_or_ge (bufferLen - used.length) read.length with hgt | hle
        · right
          rw [List.length_append, List.length_take]
          omega
        · exact .inl (by rw [List.take_of_length_le hle])
      rw [readLoop, finished_none_open hlt]
      simp only [Option.map_none, Option.getD_none]
      generalize used ++ read.take (bufferLen - used.length) = used' at hpre hlen' hfits
      cases hdelimiter : delimiter used' with
      | none =>
        rw [readHead_none hdelimiter]
        rcases hfits with rfl | hfull
        · rw [List.flatten_cons, ← List.append_assoc] at hconsistent ⊢
          exact ih hconsistent hlen' hdelimiter
        · left
          rw [whole_full hpre hfull hdelimiter]
          show readLoop ending used' none reads = _
          rw [readLoop.eq_def, finished_none_full hfull]
      | some p =>
        obtain ⟨i, n⟩ := p
        rcases delimiter_of_prefix (prefix_window hpre hlen') hdelimiter with
          hsame | ⟨rfl, hl, c, hc, hlt⟩
        · left
          rw [whole, readHead_of_prefix (prefix_window hpre hlen') hdelimiter hsame]
          cases hhead : readHead used' with
          | error e => rfl
          | ok head =>
            cases head with
            | none => exact (readHead_ne_none hdelimiter hhead).elim
            | some head =>
              have htotal := total_le hhead hlen'
              simp only
              rw [readLoop_some htotal]
              rcases hfits with rfl | hfull
              · rw [List.flatten_cons, List.append_assoc]
              · rw [settle_of_isPrefix (List.prefix_append _ _) (by omega),
                  settle_of_isPrefix hpre (by omega)]
        · obtain ⟨e, e', he, he', hkind⟩ := hconsistent i c hl hc hlt
          refine .inr ⟨e, e', ?_, ?_, hkind⟩
          · have hi : i ≤ used'.length := by
              have hle := delimiter_le hdelimiter
              omega
            rw [take_of_isPrefix (prefix_window hpre hlen') hi] at he
            rw [readHead_some hdelimiter, he]
          · rw [whole, readHead_some (delimiter_eq_some.mpr (.inl ⟨rfl, hc⟩)), he']
    · left
      rw [readLoop, finished_none_full heq, whole_full (List.prefix_append _ _) heq hnone]

end Loop

/-! ### Headers and body -/

section Body

variable {buf : List UInt8} {head : Head}

theorem fromUtf8_of_bodyLength {headers : List UInt8} {n : ℕ} (h : bodyLength headers = .ok n) :
    ∃ cs, Utf8.fromUtf8 headers = some cs := by
  rw [bodyLength] at h
  split at h
  · cases h
  next cs hcs => exact ⟨cs, hcs⟩

theorem shown_headers {headers pat body : List UInt8} {n : ℕ} (hvalid : bodyLength headers = .ok n)
    (hpat : pat = crlfcrlf ∨ pat = lflf) :
    (Utf8.lossy (headers ++ pat ++ body)).flatten =
      headers ++ pat ++ (Utf8.lossy body).flatten := by
  obtain ⟨cs, hcs⟩ := fromUtf8_of_bodyLength hvalid
  have hascii : Utf8.fromUtf8 pat = some (pat.map fun b => [b]) := by
    rcases hpat with rfl | rfl <;> rfl
  have hboth : Utf8.fromUtf8 (headers ++ pat) = some (cs ++ pat.map fun b => [b]) := by
    rw [Utf8.fromUtf8_append hcs, hascii]
    rfl
  rw [Utf8.lossy_append hboth, List.flatten_append, (Utf8.fromUtf8_eq_some hboth).2.2.2]

theorem takeApart_eq (method path : Text)
    (hdelimiter : delimiter buf = some (head.headerEnd, head.delimiterLen))
    (hvalid : bodyLength (buf.take head.headerEnd) = .ok head.length) :
    takeApart method path buf =
      .request method path (buf.take head.headerEnd) (buf.drop head.bodyStart) := by
  have hle := delimiter_le hdelimiter
  obtain ⟨headerEnd, delimiterLen, length⟩ := head
  simp only [Head.bodyStart] at *
  have htake (pat : List UInt8) (rest : List UInt8) (hlen : headerEnd ≤ buf.length) :
      (buf.take headerEnd ++ pat ++ rest).take headerEnd = buf.take headerEnd := by
    rw [List.append_assoc, List.take_append_of_le_length (by rw [List.length_take]; omega),
      List.take_take, Nat.min_self]
  have hdrop (pat : List UInt8) (rest : List UInt8) (hlen : headerEnd ≤ buf.length) :
      (buf.take headerEnd ++ pat ++ rest).drop headerEnd = pat ++ rest := by
    rw [List.append_assoc, List.drop_append_of_le_length (by rw [List.length_take]; omega),
      List.drop_take, Nat.sub_self, List.take_zero, List.nil_append]
  rcases delimiter_eq_some.mp hdelimiter with ⟨rfl, hfind⟩ | ⟨rfl, hnone, hfind⟩
  · have hsplit := (find_eq_some hfind).2
    have hshown : (Utf8.lossy buf).flatten = buf.take headerEnd ++ crlfcrlf ++
        (Utf8.lossy (buf.drop (headerEnd + 4))).flatten := by
      conv_lhs => rw [hsplit]
      exact shown_headers hvalid (.inl rfl)
    have hpre : buf.take headerEnd ++ crlfcrlf <+: buf := ⟨_, hsplit.symm⟩
    have hfound : find crlfcrlf (Utf8.lossy buf).flatten = some headerEnd := by
      rw [hshown]
      refine find_extend (List.prefix_append _ _) (find_restrict hpre hfind ?_)
      rw [List.length_append, List.length_take]
      omega
    have hoffset : crlfcrlf <+: (Utf8.lossy buf).flatten.drop headerEnd := by
      rw [hshown, hdrop _ _ (by omega)]
      exact List.prefix_append _ _
    simp only [takeApart, hfound, Option.some_or]
    rw [if_pos hoffset, if_pos hle, hshown, htake _ _ (by omega)]
  · have hsplit := (find_eq_some hfind).2
    have hshown : (Utf8.lossy buf).flatten = buf.take headerEnd ++ lflf ++
        (Utf8.lossy (buf.drop (headerEnd + 2))).flatten := by
      conv_lhs => rw [hsplit]
      exact shown_headers hvalid (.inr rfl)
    have hpre : buf.take headerEnd ++ lflf <+: buf := ⟨_, hsplit.symm⟩
    have hfound : find lflf (Utf8.lossy buf).flatten = some headerEnd := by
      rw [hshown]
      refine find_extend (List.prefix_append _ _) (find_restrict hpre hfind ?_)
      rw [List.length_append, List.length_take]
      omega
    -- the string has no CRLF CRLF that the bytes do not have
    have habsent : ¬ crlfcrlf <:+: (Utf8.lossy buf).flatten := fun h =>
      find_eq_none_iff.mp hnone (Utf8.infix_of_infix_shown (by decide +kernel) (by decide +kernel) h)
    have hoffset : ¬ crlfcrlf <+: (Utf8.lossy buf).flatten.drop headerEnd := fun h =>
      habsent (h.isInfix.trans (List.drop_suffix _ _).isInfix)
    simp only [takeApart, find_eq_none_iff.mpr habsent, hfound, Option.none_or]
    rw [if_neg hoffset, if_pos hle, hshown, htake _ _ (by omega)]

theorem handleConnection_eq (hdelimiter : delimiter buf = some (head.headerEnd, head.delimiterLen))
    (hvalid : bodyLength (buf.take head.headerEnd) = .ok head.length) :
    handleConnection (.ok buf) = .answered 400 "Bad Request" ∨
      ∃ method path, handleConnection (.ok buf) =
        .request method path (buf.take head.headerEnd) (buf.drop head.bodyStart) := by
  have hbuf : buf ≠ [] := by
    rintro rfl
    cases hdelimiter
  have hlines : Text.linesFrom [] _ ≠ [] := Text.linesFrom_ne_nil (.inr (Utf8.lossy_ne_nil hbuf))
  rw [handleConnection, if_neg hbuf]
  split
  next h => exact (hlines h).elim
  · split
    next method path _ _ => exact .inr ⟨method, path, takeApart_eq method path hdelimiter hvalid⟩
    · exact .inl rfl

end Body

/-! ### Every segmentation -/

variable {ending : StreamEnd} {data : List UInt8}

theorem whole_eq_ok {buf : List UInt8} {head : Option Head}
    (h : whole ending data = .ok (buf, head)) :
    (buf = [] ∧ head = none) ∨ ∃ hd, head = some hd ∧ buf.length = hd.total ∧
      delimiter buf = some (hd.headerEnd, hd.delimiterLen) ∧
      bodyLength (buf.take hd.headerEnd) = .ok hd.length := by
  have hanswer {r : Option Head} (h : ending.answer data = .ok (buf, r)) : buf = [] ∧ r = none := by
    cases ending with
    | closed =>
      rw [StreamEnd.answer] at h
      split at h
      · cases h
        exact ⟨rfl, rfl⟩
      · cases h
    | timedOut => cases h
    | failed => cases h
  rw [whole] at h
  split at h
  next hd hhead =>
    rw [settle] at h
    split at h
    next hle =>
      cases h
      obtain ⟨hdelimiter, hlength, -⟩ := readHead_eq_ok_some hhead
      have htotal := total_le hhead (by rw [window, List.length_take]; omega)
      have hpre : data.take hd.total <+: window data :=
        List.take_prefix_take_left htotal
      have hlen : (data.take hd.total).length = hd.total := by
        rw [List.length_take]
        omega
      have hend : hd.headerEnd + hd.delimiterLen ≤ (data.take hd.total).length := by
        rw [hlen, Head.total, Head.bodyStart]
        omega
      refine .inr ⟨hd, rfl, hlen, ?_, ?_⟩
      · rcases delimiter_eq_some.mp hdelimiter with ⟨hn, hfind⟩ | ⟨hn, hnone, hfind⟩
        · rw [hn] at hend
          exact delimiter_eq_some.mpr (.inl ⟨hn, find_restrict hpre hfind hend⟩)
        · rw [hn] at hend
          exact delimiter_eq_some.mpr (.inr ⟨hn, find_prefix_eq_none hpre hnone,
            find_restrict hpre hfind hend⟩)
      · rw [take_of_isPrefix hpre (by omega)] at hlength
        exact hlength
    · exact .inl (hanswer h)
  · split at h
    · exact .inl (hanswer h)
    · cases h
  · cases h

theorem Consistent.uniform (h : Consistent data) : Uniform ending data := by
  have hagree (reads : List (List UInt8)) (hreads : Splits reads data) :
      Agree (readRequest ending reads) (whole ending data) := by
    rw [← hreads.2] at h ⊢
    exact readLoop_none h (Nat.zero_le _) rfl
  have hok {reads : List (List UInt8)} (hreads : Splits reads data) {buf : List UInt8}
      {head : Option Head} (hread : readRequest ending reads = .ok (buf, head)) :
      whole ending data = .ok (buf, head) := by
    rcases hagree reads hreads with heq | ⟨e, -, he, -, -⟩
    · exact heq.symm.trans hread
    · cases he.symm.trans hread
  constructor
  · intro reads reads' hreads hreads'
    have hanswer (reads : List (List UInt8)) (hreads : Splits reads data) :
        answer (readRequest ending reads) = answer (whole ending data) := by
      rcases hagree reads hreads with heq | ⟨e, e', he, he', hkind⟩
      · rw [heq]
      · rw [he, he', answer, answer, hkind]
    rw [hanswer reads hreads, hanswer reads' hreads']
  · intro reads buf hreads hread
    rcases whole_eq_ok (hok hreads hread) with ⟨hbuf, -⟩ | ⟨hd, hhead, -⟩
    · exact hbuf
    · cases hhead
  · intro reads buf head hreads hread
    rcases whole_eq_ok (hok hreads hread) with ⟨-, hhead⟩ | ⟨hd, hhead, hlen, hdelimiter, hlength⟩
    · cases hhead
    · cases hhead
      exact ⟨hlength, hlen, handleConnection_eq hdelimiter hlength⟩
  · intro reads hreads
    cases hread : readRequest ending reads with
    | error e => cases e <;> nofun
    | ok result =>
      obtain ⟨buf, head⟩ := result
      show handleConnection (.ok buf) ≠ .panicked
      rcases whole_eq_ok (hok hreads hread) with ⟨rfl, -⟩ | ⟨hd, -, -, hdelimiter, hlength⟩
      · nofun
      · rcases handleConnection_eq hdelimiter hlength with h | ⟨method, path, h⟩ <;> rw [h] <;> nofun

theorem answer_settle_ne (head : Head) :
    answer (settle ending head data) ≠ .error .invalidData := by
  rw [settle]
  split
  · nofun
  · cases ending with
    | closed =>
      rw [StreamEnd.answer]
      split <;> nofun
    | timedOut => nofun
    | failed => nofun

theorem splits_singleton (hdata : data ≠ []) : Splits [data] data :=
  ⟨fun _ hread => List.mem_singleton.mp hread ▸ hdata, List.flatten_singleton⟩

theorem readRequest_cons (read : List UInt8) (reads : List (List UInt8)) :
    readRequest ending (read :: reads) =
      match readHead (window read) with
      | .ok head => readLoop ending (window read) head reads
      | .error e => .error e := by
  rw [readRequest, readLoop, finished_none_open (by decide)]
  rfl

theorem Uniform.consistent (h : Uniform ending data) : Consistent data := by
  intro l c hl hc hlt
  have hwindow : window data <+: data := List.take_prefix _ _
  have hlenl : l + 2 ≤ (window data).length := (find_eq_some hl).1
  have hlenc : c + 4 ≤ (window data).length := (find_eq_some hc).1
  have hbuffer : (window data).length ≤ bufferLen := by
    rw [window, List.length_take]
    omega
  have hdata := hwindow.length_le
  -- one segmentation stops after the blank line, the other does not stop
  have hsplits : Splits [data.take (l + 2), data.drop (l + 2)] data := by
    constructor
    · intro read hread hnil
      have hlen := congrArg List.length hnil
      rcases List.mem_pair.mp hread with rfl | rfl
      · rw [List.length_take, List.length_nil] at hlen
        omega
      · rw [List.length_drop, List.length_nil] at hlen
        omega
    · simp
  have hwhole : Splits [data] data := splits_singleton (by rintro rfl; simp [window] at hlenl)
  have hsame := h.same _ _ hsplits hwhole
  have hgap : l + 2 ≤ c := by
    by_contra hgap
    obtain rfl : c = l + 1 := by omega
    have hl1 := getElem?_of_find hl (j := 1) (by decide)
    have hc0 := getElem?_of_find hc (j := 0) (by decide)
    cases hl1.symm.trans hc0
  have hheaders : (window data).take c =
      (window data).take l ++ lflf ++ ((window data).drop (l + 2)).take (c - (l + 2)) := by
    have hsplit := (find_eq_some hl).2
    have hlen : ((window data).take l ++ lflf).length = l + 2 := by
      rw [List.length_append, List.length_take, Nat.min_eq_left (by omega)]
      rfl
    conv_lhs => rw [hsplit]
    rw [List.take_append, hlen, List.take_of_length_le (by omega)]
    rfl
  obtain ⟨e', he', hkind'⟩ := bodyLength_blank ((window data).take l)
    (((window data).drop (l + 2)).take (c - (l + 2)))
  rw [← hheaders] at he'
  have hright : answer (readRequest ending [data]) = .error e'.kind := by
    rw [readRequest_cons, readHead_some (delimiter_eq_some.mpr (.inl ⟨rfl, hc⟩)), he']
    rfl
  have hblank : window (data.take (l + 2)) = (window data).take (l + 2) := by
    rw [window, window, List.take_take, List.take_take, Nat.min_comm]
  have hpre : (window data).take (l + 2) <+: window data := List.take_prefix _ _
  have hlen : ((window data).take (l + 2)).length = l + 2 := by
    rw [List.length_take]
    omega
  have hdelimiter : delimiter ((window data).take (l + 2)) = some (l, 2) := by
    refine delimiter_eq_some.mpr (.inr ⟨rfl, ?_, find_restrict hpre hl hlen.ge⟩)
    cases hfind : find crlfcrlf ((window data).take (l + 2)) with
    | none => rfl
    | some c' =>
      obtain rfl := Option.some.inj ((find_extend hpre hfind).symm.trans hc)
      have hend : c' + 4 ≤ _ := (find_eq_some hfind).1
      omega
  have htake : ((window data).take (l + 2)).take l = (window data).take l := by
    rw [List.take_take, Nat.min_eq_left (by omega)]
  rw [hright, readRequest_cons, hblank, readHead_some hdelimiter, htake] at hsame
  cases hl' : bodyLength ((window data).take l) with
  | error e =>
    rw [hl'] at hsame
    exact ⟨e, e', rfl, he', Except.error.inj hsame⟩
  | ok n =>
    -- what is fine up to the blank line is not refused as invalid
    rw [hl', hkind' n hl'] at hsame
    by_cases hbig : n > bufferLen - (l + 2)
    · simp only [hbig, if_true] at hsame
      cases hsame
    · simp only [if_neg hbig] at hsame
      rw [readLoop_some (by simp only [Head.total, Head.bodyStart]; omega)] at hsame
      exact (answer_settle_ne _ hsame).elim

/-- **Requests are read the same whatever the segmentation**, and taken apart where they were
delimited, if and only if the stream is consistent. -/
theorem request_reading (ending : StreamEnd) (data : List UInt8) :
    Uniform ending data ↔ Consistent data :=
  ⟨Uniform.consistent, Consistent.uniform⟩

/-- A request whose headers end with LF LF, and whose body ends with CRLF CRLF. -/
def blankLineRequest : List UInt8 :=
  ascii "POST / HTTP/1.1\nContent-Length: 8\n\n" ++
    ([0xff, 0xff, 0xff, 0xff, 0x0d, 0x0a, 0x0d, 0x0a] : List UInt8)

/-- It panics if its headers arrive first. -/
theorem blank_line_panics : ¬ Uniform .closed blankLineRequest := by
  intro h
  have hsplits : Splits [blankLineRequest.take 35, blankLineRequest.drop 35] blankLineRequest := by
    constructor
    · decide
    · decide
  refine h.safe _ hsplits ?_
  decide

end MahoRD.Agent

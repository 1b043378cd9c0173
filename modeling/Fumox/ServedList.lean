import Fumox.EncodedPayload
import Fumox.LineFraming

/-!
The served URI list as the source of another instance: the metadata block is inert, and every
served entry is one line of the reader, in the plain and in the base64 output.
-/

namespace ServedList

open RustText PercentText DelimitedText Base64Text ProxyModels UriGrammar PayloadGuards LineParser
  UriLines LineFraming SsLine SsRoundTrip SubscriptionParser EncodedPayload

/-- The comment lines of `url_list_header_block`; `timestamp` is the formatted clock. -/
def headerLines (title : Text) (intervalHours count : ℕ) (timestamp : Text) : List Text :=
  ["# profile-title: " ++ stripLineBreaks title,
    "# profile-update-interval: " ++ decimal intervalHours,
    "# nodes count: " ++ decimal count,
    "# generated by: fumox 0.1.0 at " ++ timestamp]

def urlListHeaderBlock (title : Text) (intervalHours count : ℕ) (timestamp : Text) : Text :=
  (headerLines title intervalHours count timestamp).flatMap (· ++ ['\n'])

section Encode

variable (codecs : Codecs)

def encodeUriList (block : Text) (entries : List ProxyEntry) : Text :=
  if block = [] then uriLines codecs entries else block ++ uriLines codecs entries

def encodeBase64 (entries : List ProxyEntry) : Text :=
  let blob := codecs.base64.encode (bytes (uriLines codecs entries))
  blob ++ padding blob.length

end Encode

/-- What the reader makes of a served list: one outcome for each entry, and nothing else. -/
structure ReadsBack (codecs : Codecs) (served : List ProxyEntry) (result : ParsedSubscription) :
    Prop where
  format : result.format = .uriList
  entries : result.entries = served.filterMap fun e => lineEntry codecs (serialize codecs e)
  tally : result.entries.length + result.discarded + result.unrecognized = served.length
  clashSkipped : result.clashSkipped = 0

section Lines

variable {line rest : Text}

theorem lines_cons (h : Unbroken line) : lines (line ++ '\n' :: rest) = line :: lines rest := by
  have hsep : '\n' ∉ line := fun hc => h '\n' hc (.inl rfl)
  obtain ⟨piece, pieces, hpieces⟩ :=
    List.exists_cons_of_ne_nil (List.splitOn_ne_nil '\n' rest)
  rw [lines, lines, List.splitOn_append_cons_self, List.splitOn_eq_singleton hsep, hpieces]
  simp [stripCarriageReturn_eq_self h]

theorem lines_flatMap {ls : List Text} (h : ∀ line ∈ ls, Unbroken line) (rest : Text) :
    lines (ls.flatMap (· ++ ['\n']) ++ rest) = ls ++ lines rest := by
  induction ls with
  | nil => rfl
  | cons line ls ih =>
    obtain ⟨hline, hls⟩ := List.forall_mem_cons.mp h
    rw [List.flatMap_cons, List.append_assoc, List.append_assoc, List.singleton_append,
      lines_cons hline, ih hls, List.cons_append]

theorem tally_countLine (codecs : Codecs) (result : ParsedSubscription) (line : Text) :
    (countLine codecs result line).entries.length + (countLine codecs result line).discarded +
        (countLine codecs result line).unrecognized =
      result.entries.length + result.discarded + result.unrecognized +
        if isSkippedLine (trim line) = true then 0 else 1 := by
  unfold countLine
  by_cases hskip : isSkippedLine (trim line) = true
  · simp [hskip]
  · rw [if_neg hskip, if_neg hskip]
    cases parseLine codecs (trim line) with
    | parsed entry => simp only [List.length_append, List.length_singleton]; omega
    | discarded => simp only; omega
    | unrecognized => simp only; omega

theorem frame_countLine (codecs : Codecs) (result : ParsedSubscription) (line : Text) :
    (countLine codecs result line).format = result.format ∧
      (countLine codecs result line).clashSkipped = result.clashSkipped := by
  unfold countLine
  split_ifs
  · exact ⟨rfl, rfl⟩
  · cases parseLine codecs (trim line) <;> exact ⟨rfl, rfl⟩

theorem tally_foldl (codecs : Codecs) (ls : List Text) (result : ParsedSubscription) :
    (ls.foldl (countLine codecs) result).entries.length +
        (ls.foldl (countLine codecs) result).discarded +
        (ls.foldl (countLine codecs) result).unrecognized =
      result.entries.length + result.discarded + result.unrecognized +
        ls.countP fun line => !isSkippedLine (trim line) := by
  induction ls generalizing result with
  | nil => rfl
  | cons line ls ih =>
    rw [List.foldl_cons, ih, tally_countLine, List.countP_cons]
    cases isSkippedLine (trim line) with
    | true => simp
    | false => simp; omega

theorem frame_foldl (codecs : Codecs) (ls : List Text) (result : ParsedSubscription) :
    (ls.foldl (countLine codecs) result).format = result.format ∧
      (ls.foldl (countLine codecs) result).clashSkipped = result.clashSkipped := by
  induction ls generalizing result with
  | nil => exact ⟨rfl, rfl⟩
  | cons line ls ih =>
    obtain ⟨hformat, hskipped⟩ := frame_countLine codecs result line
    rw [List.foldl_cons]
    exact ⟨(ih _).1.trans hformat, (ih _).2.trans hskipped⟩

/-- A text that opens with a visible character keeps it when it is trimmed. -/
theorem trim_cons {c : Char} (h : isWhitespace c = false) (t : Text) :
    ∃ u, trim (c :: t) = c :: u := by
  refine ⟨trimEnd t, ?_⟩
  have hstart : trimStart (c :: t) = c :: t := trimStart_eq_self fun d hd => by
    obtain rfl := Option.some.inj hd
    exact h
  rw [trim, hstart]
  exact trimEnd_append_cons h [] t

theorem isSkippedLine_comment (t : Text) : isSkippedLine (trim ('#' :: t)) = true := by
  obtain ⟨u, hu⟩ := trim_cons (by decide : isWhitespace '#' = false) t
  rw [hu]
  rfl

end Lines

/-- The first letters of the canonical schemes. -/
def schemeInitials : Text := "vthmsan"

theorem initial_facts : ∀ c ∈ schemeInitials,
    isWhitespace c = false ∧ c ≠ '#' ∧ c ≠ 'p' ∧ c ≠ '\x7b' ∧ c ≠ '[' := by
  decide

theorem asStr_initial (s : Scheme) : ∃ c t, s.asStr = c :: t ∧ c ∈ schemeInitials := by
  cases s <;> exact ⟨_, _, rfl, by decide⟩

theorem serialize_shape (codecs : Codecs) (entry : ProxyEntry) :
    ∃ (c : Char) (t rest : Text), serialize codecs entry = c :: (t ++ ("://" ++ rest)) ∧
      c ∈ schemeInitials := by
  rcases serialize_cases codecs entry with ⟨s, spec, hspec, heq⟩ | heq | heq | heq
  · obtain ⟨c, t, hs, hc⟩ := asStr_initial s
    refine ⟨c, t, LineRoundTrip.printEntry (sanitizeForOutput (canonicalForm codecs.yaml entry)),
      ?_, hc⟩
    rw [heq, LineRoundTrip.serializeWithSpec_eq, (uriSpec_scheme hspec).2, hs, List.append_assoc,
      List.cons_append]
  · obtain ⟨transport, rest, hnaive⟩ : ∃ transport rest, serializeNaive
        (sanitizeForOutput (canonicalForm codecs.yaml entry)) =
          "naive+" ++ transport ++ "://" ++ rest := ⟨_, _, rfl⟩
    refine ⟨'n', "aive+" ++ transport, rest, ?_, by decide⟩
    rw [heq, hnaive, List.append_assoc]
    rfl
  · obtain ⟨rest, hss⟩ : ∃ rest, SsLine.serialize codecs.base64
        (sanitizeForOutput (canonicalForm codecs.yaml entry)) = ("ss://" : Text) ++ rest :=
      ⟨_, List.append_assoc _ _ _⟩
    refine ⟨'s', ['s'], rest, ?_, by decide⟩
    rw [heq, hss]
    rfl
  · obtain ⟨rest, hvmess⟩ : ∃ rest, VmessLine.serialize codecs.base64 codecs.json
        (sanitizeForOutput (canonicalForm codecs.yaml entry)) = ("vmess://" : Text) ++ rest :=
      ⟨_, rfl⟩
    refine ⟨'v', "mess", rest, ?_, by decide⟩
    rw [heq, hvmess]
    rfl

theorem served_line_read (codecs : Codecs) (entry : ProxyEntry) :
    isSkippedLine (trim (serialize codecs entry)) = false := by
  obtain ⟨c, t, rest, heq, hc⟩ := serialize_shape codecs entry
  obtain ⟨hwhite, hcomment, -⟩ := initial_facts c hc
  obtain ⟨u, hu⟩ := trim_cons hwhite (t ++ ("://" ++ rest))
  rw [heq, hu]
  simp [isSkippedLine, hcomment]

/-- No line of the text opens like a Clash document. -/
def NoClashLine (t : Text) : Prop :=
  ∀ piece ∈ t.splitOn '\n', piece.head? ≠ some 'p'

theorem not_contains_clash {t : Text} (h : NoClashLine t) : contains "\nproxies:" t = false := by
  rw [Bool.eq_false_iff]
  intro hfound
  obtain ⟨a, b, rfl⟩ := contains_iff.mp hfound
  obtain ⟨piece, pieces, hpieces⟩ :=
    List.exists_cons_of_ne_nil (List.splitOn_ne_nil '\n' (("roxies:" : Text) ++ b))
  have hp : (('p' :: (("roxies:" : Text) ++ b)).splitOn '\n') = ('p' :: piece) :: pieces := by
    rw [List.splitOn_cons_eq_if_modifyHead, hpieces]
    rfl
  refine h ('p' :: piece) ?_ rfl
  have hsplit : a ++ ("\nproxies:" : Text) ++ b = a ++ '\n' :: 'p' :: (("roxies:" : Text) ++ b) := by
    rw [List.append_assoc]
    rfl
  rw [hsplit, List.splitOn_append_cons_self, hp]
  simp

theorem detectFormat_uriList {c : Char} {t : Text} (hc : isWhitespace c = false)
    (hjson : c ≠ '\x7b' ∧ c ≠ '[') (hreturn : '\r' ∉ c :: t) (hclash : NoClashLine (c :: t)) :
    detectFormat (c :: t) = .uriList := by
  have hstart : trimStart (c :: t) = c :: t := trimStart_eq_self fun d hd => by
    obtain rfl := Option.some.inj hd
    exact hc
  have hp : c ≠ 'p' := by
    rintro rfl
    obtain ⟨piece, pieces, hpieces⟩ := List.exists_cons_of_ne_nil (List.splitOn_ne_nil '\n' t)
    refine hclash ('p' :: piece) ?_ rfl
    rw [List.splitOn_cons_eq_if_modifyHead, hpieces]
    exact List.mem_cons_self
  have hprefix : ("proxies:" : Text).isPrefixOf (c :: t) = false := by
    rw [Bool.eq_false_iff]
    intro hpre
    obtain ⟨rest, hrest⟩ := List.isPrefixOf_iff_prefix.mp hpre
    exact hp (List.cons.inj hrest).1.symm
  have hcrlf : contains "\r\nproxies:" (c :: t) = false :=
    not_contains_of_not_mem (by decide) hreturn
  simp only [detectFormat, hstart]
  rw [if_neg (by simpa using hjson), hprefix, not_contains_clash hclash, hcrlf]
  rfl

section Body

variable {codecs : Codecs} (halphabet : ∀ bs, ∀ c ∈ codecs.base64.encode bs, InAlphabet c)
  {title timestamp : Text} {intervalHours count : ℕ} {entries : List ProxyEntry}

theorem unbroken_headerLines (htimestamp : Unbroken timestamp) :
    ∀ line ∈ headerLines title intervalHours count timestamp, Unbroken line := by
  have hlabel : ∀ {label value : Text}, label.all (fun c => c != '\n' && c != '\r') = true →
      Unbroken value → Unbroken (label ++ value) := fun hlabel hvalue =>
    unbroken_append.mpr ⟨unbroken_of_all hlabel, hvalue⟩
  simp only [headerLines, List.forall_mem_cons]
  refine ⟨hlabel (by decide) (unbroken_stripLineBreaks title), hlabel (by decide)
    (unbroken_decimal intervalHours), hlabel (by decide) (unbroken_decimal count),
    hlabel (by decide) htimestamp, fun line hline => absurd hline List.not_mem_nil⟩

theorem comment_headerLines : ∀ line ∈ headerLines title intervalHours count timestamp,
    ∃ t, line = '#' :: t := by
  simp only [headerLines, List.forall_mem_cons]
  exact ⟨⟨_, rfl⟩, ⟨_, rfl⟩, ⟨_, rfl⟩, ⟨_, rfl⟩, fun line hline => absurd hline List.not_mem_nil⟩

include halphabet

theorem splitOn_uriLines (hne : entries ≠ []) :
    (uriLines codecs entries).splitOn '\n' = entries.map (serialize codecs) := by
  refine List.splitOn_intercalate '\n' (fun line hline => ?_) (by simpa using hne)
  obtain ⟨entry, -, rfl⟩ := List.mem_map.mp hline
  exact fun hc => unbroken_serialize halphabet entry '\n' hc (.inl rfl)

theorem noClashLine_uriLines : NoClashLine (uriLines codecs entries) := by
  rcases eq_or_ne entries [] with rfl | hne
  · intro piece hpiece
    obtain rfl : piece = [] := by simpa [uriLines] using hpiece
    simp
  · intro piece hpiece
    rw [splitOn_uriLines halphabet hne] at hpiece
    obtain ⟨entry, -, rfl⟩ := List.mem_map.mp hpiece
    obtain ⟨c, t, rest, heq, hc⟩ := serialize_shape codecs entry
    rw [heq]
    simpa using (initial_facts c hc).2.2.1

theorem return_not_mem_uriLines : '\r' ∉ uriLines codecs entries := by
  intro hc
  rcases mem_intercalate hc with hc | ⟨line, hline, hc⟩
  · exact absurd hc (by decide)
  · obtain ⟨entry, -, rfl⟩ := List.mem_map.mp hline
    exact unbroken_serialize halphabet entry '\r' hc (.inr rfl)

omit halphabet in
theorem noClashLine_comments {ls : List Text} {rest : Text}
    (hls : ∀ line ∈ ls, Unbroken line ∧ ∃ t, line = '#' :: t) (h : NoClashLine rest) :
    NoClashLine (ls.flatMap (· ++ ['\n']) ++ rest) := by
  induction ls with
  | nil => exact h
  | cons line ls ih =>
    obtain ⟨⟨hline, t, rfl⟩, hrest⟩ := List.forall_mem_cons.mp hls
    have hsep : '\n' ∉ '#' :: t := fun hc => hline '\n' hc (.inl rfl)
    intro piece hpiece
    rw [List.flatMap_cons, List.append_assoc, List.append_assoc, List.singleton_append,
      List.splitOn_append_cons_self, List.splitOn_eq_singleton hsep] at hpiece
    rcases List.mem_cons.mp hpiece with rfl | hpiece
    · simp
    · exact ih hrest piece hpiece

omit halphabet in
theorem marked_uriLines (hne : entries ≠ []) :
    contains "://" (uriLines codecs entries) = true := by
  obtain ⟨entry, entries, rfl⟩ := List.exists_cons_of_ne_nil hne
  obtain ⟨c, t, rest, heq, -⟩ := serialize_shape codecs entry
  have hfirst : serialize codecs entry <+: uriLines codecs (entry :: entries) := by
    cases entries with
    | nil => simp [uriLines]
    | cons e entries => simp [uriLines, List.intercalate_cons_cons]
  have hmark : ("://" : Text) <:+: serialize codecs entry :=
    ⟨c :: t, rest, by rw [heq]; simp⟩
  exact contains_iff.mpr (hmark.trans hfirst.isInfix)

omit halphabet in
theorem readsBack_of_lines {body : Text} {comments : List Text}
    (hcomments : ∀ line ∈ comments, ∃ t, line = '#' :: t)
    (hlines : lines body = comments ++ entries.map (serialize codecs)) :
    ReadsBack codecs entries (parseUriList codecs body) := by
  have hnone : ∀ line ∈ comments, isSkippedLine (trim line) = true := by
    intro line hline
    obtain ⟨t, rfl⟩ := hcomments line hline
    exact isSkippedLine_comment t
  have hcount : (lines body).countP (fun line => !isSkippedLine (trim line)) = entries.length := by
    have hserved : (entries.map (serialize codecs)).countP
        (fun line => !isSkippedLine (trim line)) = (entries.map (serialize codecs)).length := by
      rw [List.countP_eq_length]
      intro line hline
      obtain ⟨entry, -, rfl⟩ := List.mem_map.mp hline
      simp [served_line_read]
    have hskipped : comments.countP (fun line => !isSkippedLine (trim line)) = 0 := by
      rw [List.countP_eq_zero]
      intro line hline
      simp [hnone line hline]
    rw [hlines, List.countP_append, hskipped, hserved, List.length_map, Nat.zero_add]
  refine ⟨?_, ?_, ?_, ?_⟩
  · exact (frame_foldl codecs (lines body) _).1
  · rw [entries_parseUriList, hlines, List.filterMap_append, List.filterMap_map]
    have hempty : comments.filterMap (lineEntry codecs) = [] := by
      rw [List.filterMap_eq_nil_iff]
      intro line hline
      rw [lineEntry, if_pos (hnone line hline)]
    rw [hempty, List.nil_append]
    rfl
  · rw [parseUriList, tally_foldl, hcount]
    simp
  · exact (frame_foldl codecs (lines body) _).2

omit halphabet in
theorem decodeBase64Text_comment
    (hforeign : ∀ t bs, codecs.base64.decode t = some bs → '#' ∉ t) {t : Text} (ht : '#' ∈ t) :
    decodeBase64Text codecs.base64 t = none := by
  have hnone : decodeB64Lenient codecs.base64 (t.filter fun c => !isWhitespace c) = none := by
    have hmem : '#' ∈ normalizeAlphabet (t.filter fun c => !isWhitespace c) :=
      List.mem_map.mpr ⟨'#', List.mem_filter.mpr ⟨ht, by decide⟩, by decide⟩
    unfold decodeB64Lenient
    split_ifs
    · rfl
    · dsimp only
      split_ifs
      · rfl
      · cases hdecode : codecs.base64.decode _ with
        | none => rfl
        | some bs => exact absurd (List.mem_append_left _ hmem) (hforeign _ _ hdecode)
  rw [decodeBase64Text, hnone]
  rfl

def servedBody (codecs : Codecs) (title : Text) (intervalHours count : ℕ) (timestamp : Text)
    (entries : List ProxyEntry) : Text :=
  encodeUriList codecs (urlListHeaderBlock title intervalHours count timestamp) entries

omit halphabet in
theorem servedBody_eq (codecs : Codecs) (title timestamp : Text) (intervalHours count : ℕ)
    (entries : List ProxyEntry) : ∃ t, servedBody codecs title intervalHours count timestamp entries =
      '#' :: t ∧ servedBody codecs title intervalHours count timestamp entries =
        (headerLines title intervalHours count timestamp).flatMap (· ++ ['\n']) ++
          uriLines codecs entries := by
  have hblock : ∃ t, urlListHeaderBlock title intervalHours count timestamp = '#' :: t := ⟨_, rfl⟩
  obtain ⟨t, ht⟩ := hblock
  refine ⟨t ++ uriLines codecs entries, ?_, ?_⟩
  · rw [servedBody, encodeUriList, if_neg (by simp [ht]), ht]
    rfl
  · rw [servedBody, encodeUriList, if_neg (by simp [ht])]
    rfl

theorem detectFormat_servedBody (htimestamp : Unbroken timestamp) :
    detectFormat (servedBody codecs title intervalHours count timestamp entries) = .uriList := by
  obtain ⟨t, hbody, heq⟩ := servedBody_eq codecs title timestamp intervalHours count entries
  have hunbroken : ∀ line ∈ headerLines title intervalHours count timestamp, Unbroken line :=
    unbroken_headerLines htimestamp
  have hreturn : '\r' ∉ '#' :: t := by
    rw [← hbody, heq]
    intro hc
    rcases List.mem_append.mp hc with hc | hc
    · obtain ⟨line, hline, hc⟩ := List.mem_flatMap.mp hc
      rcases List.mem_append.mp hc with hc | hc
      · exact hunbroken line hline '\r' hc (.inr rfl)
      · exact absurd hc (by decide)
    · exact return_not_mem_uriLines halphabet hc
  have hclash : NoClashLine ('#' :: t) := by
    rw [← hbody, heq]
    exact noClashLine_comments (fun line hline => ⟨hunbroken line hline,
      comment_headerLines line hline⟩) (noClashLine_uriLines halphabet)
  rw [hbody]
  exact detectFormat_uriList (by decide) (by decide) hreturn hclash

omit halphabet in
theorem decodePayload_servedBody
    (hforeign : ∀ t bs, codecs.base64.decode t = some bs → '#' ∉ t) {encoding : Encoding}
    (hencoding : encoding ≠ .base64) :
    decodePayload codecs.base64 (servedBody codecs title intervalHours count timestamp entries)
      encoding = .ok (servedBody codecs title intervalHours count timestamp entries) := by
  obtain ⟨t, hbody, -⟩ := servedBody_eq codecs title timestamp intervalHours count entries
  cases encoding with
  | plain => rfl
  | base64 => exact absurd rfl hencoding
  | auto =>
    obtain ⟨u, hu⟩ := trim_cons (by decide : isWhitespace '#' = false) t
    have hnone : decodeBase64Text codecs.base64 (trim ('#' :: t)) = none :=
      decodeBase64Text_comment hforeign (hu ▸ List.mem_cons_self)
    rw [hbody, decodePayload, hnone]
    split_ifs <;> rfl

end Body

section Mirror

variable {codecs : Codecs} {title timestamp : Text} {intervalHours count : ℕ}
  {entries : List ProxyEntry}

/-- The plain list reads back line for line: whatever the title holds, the metadata block adds no
entry, takes none away, and does not turn the list into another format. -/
theorem served_list_reads_back
    (halphabet : ∀ bs, ∀ c ∈ codecs.base64.encode bs, InAlphabet c)
    (hforeign : ∀ t bs, codecs.base64.decode t = some bs → '#' ∉ t)
    (htimestamp : Unbroken timestamp) {encoding : Encoding} (hencoding : encoding ≠ .base64)
    {inputFormat : Option InputFormat}
    (hformat : inputFormat = none ∨ inputFormat = some .uriList) :
    ∃ result, parseSubscription codecs
        (servedBody codecs title intervalHours count timestamp entries) encoding inputFormat =
          .ok result ∧ ReadsBack codecs entries result := by
  have hdetect : inputFormat.getD (detectFormat
      (servedBody codecs title intervalHours count timestamp entries)) = .uriList := by
    rcases hformat with rfl | rfl
    · exact detectFormat_servedBody halphabet htimestamp
    · rfl
  have hlines : lines (servedBody codecs title intervalHours count timestamp entries) =
      headerLines title intervalHours count timestamp ++ entries.map (serialize codecs) := by
    obtain ⟨-, -, heq⟩ := servedBody_eq codecs title timestamp intervalHours count entries
    rw [heq, lines_flatMap (unbroken_headerLines htimestamp)]
    congr 1
    exact lines_intercalate fun line hline => by
      obtain ⟨entry, -, rfl⟩ := List.mem_map.mp hline
      exact ⟨unbroken_serialize halphabet entry, serialize_ne_nil codecs entry⟩
  refine ⟨_, ?_, readsBack_of_lines comment_headerLines hlines⟩
  rw [parseSubscription, decodePayload_servedBody hforeign hencoding]
  simp only [Except.bind, bind, hdetect]
  rfl

/-- The base64 list reads back like the plain one, though it carries no block. -/
theorem base64_list_reads_back (hbase64 : codecs.base64.RoundTrips) (hne : entries ≠ []) :
    ∃ result, parseSubscription codecs (encodeBase64 codecs entries) .auto none = .ok result ∧
      ReadsBack codecs entries result := by
  have hmarked : contains "://" (uriLines codecs entries) = true := marked_uriLines hne
  have hblob : ∀ c ∈ encodeBase64 codecs entries, isWhitespace c = false := by
    intro c hc
    rcases List.mem_append.mp hc with hc | hc
    · exact inAlphabet_visible (hbase64.alphabet _ c hc)
    · have hpad : c = '=' := by
        revert hc
        unfold padding
        split_ifs <;> simp
      rw [hpad]
      decide
  have hform : Base64Form codecs.base64 (uriLines codecs entries)
      (encodeBase64 codecs entries) := by
    have hfilter : (encodeBase64 codecs entries).filter (fun c => !isWhitespace c) =
        encodeBase64 codecs entries :=
      List.filter_eq_self.mpr fun c hc => by simp [hblob c hc]
    rw [Base64Form, hfilter]
    exact .standardPadded
  have hlines : lines (uriLines codecs entries) = [] ++ entries.map (serialize codecs) :=
    lines_intercalate fun line hline => by
      obtain ⟨entry, -, rfl⟩ := List.mem_map.mp hline
      exact ⟨unbroken_serialize hbase64.alphabet entry, serialize_ne_nil codecs entry⟩
  have hdetect : detectFormat (uriLines codecs entries) = .uriList := by
    obtain ⟨entry, rest, rfl⟩ := List.exists_cons_of_ne_nil hne
    obtain ⟨c, t, tail, heq, hc⟩ := serialize_shape codecs entry
    obtain ⟨u, hu⟩ : ∃ u, uriLines codecs (entry :: rest) = c :: u := by
      cases rest with
      | nil => exact ⟨_, by simp only [uriLines, List.map_cons, List.map_nil,
          List.intercalate_singleton, heq]; rfl⟩
      | cons e rest => exact ⟨_, by simp only [uriLines, List.map_cons,
          List.intercalate_cons_cons, heq]; rfl⟩
    obtain ⟨hwhite, -, -, hbrace, hbracket⟩ := initial_facts c hc
    rw [hu]
    exact detectFormat_uriList hwhite ⟨hbrace, hbracket⟩
      (hu ▸ return_not_mem_uriLines hbase64.alphabet) (hu ▸ noClashLine_uriLines hbase64.alphabet)
  refine ⟨_, ?_, readsBack_of_lines (by simp) hlines⟩
  rw [parseSubscription, decodePayload_form hbase64 hmarked hform]
  simp only [Except.bind, bind, Option.getD_none, hdetect]
  rfl

end Mirror

theorem decodeGroup_comment {w x y z : Char} {group : List UInt8}
    (h : decodeGroup w x y z = some group) : '#' ∉ [w, x, y, z] := by
  have hnone : digitValue '#' = none := by decide +kernel
  intro hmem
  simp only [List.mem_cons, List.not_mem_nil, or_false] at hmem
  rcases hmem with rfl | rfl | rfl | rfl
  · simp [decodeGroup, hnone] at h
  · simp [decodeGroup, hnone] at h
  · simp [decodeGroup, hnone] at h
  · simp [decodeGroup, hnone] at h

/-- The standard decoder takes no character that is not base64. -/
theorem decode_comment {t : Text} {bs : List UInt8} (h : Base64Text.decode t = some bs) :
    '#' ∉ t := by
  induction t using Base64Text.decode.induct generalizing bs with
  | case1 w x y z rest ih =>
    simp only [Base64Text.decode, Option.bind_eq_bind, Option.bind_eq_some_iff] at h
    obtain ⟨group, hgroup, h⟩ := h
    split_ifs at h
    obtain ⟨tail, htail, -⟩ := Option.bind_eq_some_iff.mp h
    have hdigits := decodeGroup_comment hgroup
    simp only [List.mem_cons, List.not_mem_nil, or_false, not_or] at hdigits
    simp only [List.mem_cons, not_or]
    exact ⟨hdigits.1, hdigits.2.1, hdigits.2.2.1, hdigits.2.2.2, ih htail⟩
  | case2 => simp
  | case3 t h₁ h₂ => simp [Base64Text.decode] at h

open LineRoundTrip (sampleCodecs)

theorem served_list_reads_back_sample : ∃ result, parseSubscription sampleCodecs
    (servedBody sampleCodecs "a\n# nodes count: 9" 6 1 "2026-01-01T00:00:00Z" [brokenEntry]) .auto
      none = .ok result ∧ ReadsBack sampleCodecs [brokenEntry] result :=
  served_list_reads_back encode_alphabet (fun t bs h => decode_comment h)
    (unbroken_of_all (by decide)) (by decide) (.inl rfl)

theorem base64_list_reads_back_sample : ∃ result, parseSubscription sampleCodecs
    (encodeBase64 sampleCodecs [brokenEntry]) .auto none = .ok result ∧
      ReadsBack sampleCodecs [brokenEntry] result :=
  base64_list_reads_back standard_roundTrips (by decide)

end ServedList

import IdealServer.Runs
import IdealServer.Sdp

/-! The description that a session keeps, against its sources while they change. -/
namespace IdealServer
open Lines

def MediaSession.removeMediaSource (s : MediaSession) (channelId : MediaChannelId) : MediaSession :=
  { s with mediaSources := Function.update s.mediaSources channelId none }

inductive SdpOp
  | addMediaSource (channelId : MediaChannelId) (source : MediaSource)
  | removeMediaSource (channelId : MediaChannelId)
  | getSdpMessage (now : ℤ) (ip sessionName : Bytes)

/-- A session, and the channels that had a source when its description was printed. -/
structure DescribedSession where
  session : MediaSession
  described : List MediaChannelId

/-- A call of `getSdpMessage`: the session that it is called on, and what it returns. -/
structure Description where
  session : MediaSession
  text : Bytes

namespace DescribedSession

def creatNew (lastMediaSessionId : UInt32) (rtspUrlSuffix : Bytes) : DescribedSession :=
  ⟨(MediaSession.creatNew lastMediaSessionId rtspUrlSuffix).2, []⟩

def step (s : DescribedSession) : SdpOp → Except Fault (DescribedSession × List Description)
  | .addMediaSource channelId source =>
    .ok ({ s with session := s.session.addMediaSource channelId source }, [])
  | .removeMediaSource channelId =>
    .ok ({ s with session := s.session.removeMediaSource channelId }, [])
  | .getSdpMessage now ip sessionName =>
    .ok (⟨(s.session.getSdpMessage now ip sessionName).2,
        if s.session.sdp = [] then s.session.channels else s.described⟩,
      [⟨s.session, (s.session.getSdpMessage now ip sessionName).1⟩])

end DescribedSession

/-- How the lines of a channel begin. -/
def sourceWords : List Bytes := [ascii "m=", ascii "a=rtpmap:", ascii "a=control:track"]

def isSourceLine (l : Bytes) : Bool := sourceWords.any (fun w => w.isPrefixOf l)

/-- The text is made of lines, of which those of channels are the given ones, in this order; what is
left behind the last line break does not begin another one. -/
def Lists (lines : List Bytes) (text : Bytes) : Prop :=
  ∃ ls piece, text = unlines kCRLF ls ++ piece ∧ (∀ l ∈ ls, ¬kCRLF <:+: l) ∧
    ls.filter isSourceLine = lines ∧ isSourceLine piece = false

/-- The channels that have a source are listed, and no other. -/
def Description.Lists (d : Description) : Prop :=
  IdealServer.Lists (mediaChannels.flatMap d.session.sourceLines) d.text

/-- No line of the name but the first looks like one of a channel. -/
def PlainName (sessionName : Bytes) : Prop :=
  ∀ w ∈ sourceWords, ¬kCRLF ++ w <:+: Scanf.cString sessionName

instance (sessionName : Bytes) : Decidable (PlainName sessionName) :=
  inferInstanceAs (Decidable (∀ w ∈ sourceWords, ¬kCRLF ++ w <:+: Scanf.cString sessionName))

/-- The description that is kept was printed for the channels that have a source now. One that is to
be printed fits into its array, unless it has nothing to list. -/
def DescribedSession.Keeps (s : DescribedSession) : SdpOp → Prop
  | .getSdpMessage now ip sessionName =>
    if s.session.sdp = [] then PlainName sessionName ∧
      (s.session.channels ≠ [] → s.session.printedLength now ip sessionName ≤ 1023)
    else s.session.channels = s.described
  | _ => True

/-- Local addresses are printed by `inet_ntoa`. -/
def SdpOp.Local : SdpOp → Prop
  | .getSdpMessage _ ip _ => ∀ b ∈ ip, Numeral.isDigit b = true ∨ b = 46
  | _ => True

section Lists
variable {l w : Bytes} {ls lines : List Bytes}

theorem isSourceLine_iff : isSourceLine l = true ↔ ∃ w ∈ sourceWords, w <+: l := by
  simp only [isSourceLine, List.any_eq_true, List.isPrefixOf_iff_prefix]

theorem sourceWords_plain : ∀ w ∈ sourceWords, w ≠ [] ∧ CR ∉ w ∧ w.head? ≠ some 115 := by decide

/-- Lines that are printed whole. -/
theorem lists_whole (hls : ∀ l ∈ ls, ¬kCRLF <:+: l) (hfilter : ls.filter isSourceLine = lines) :
    Lists lines (unlines kCRLF ls) := ⟨ls, [], (List.append_nil _).symm, hls, hfilter, rfl⟩

/-- Lines none of which is listed, cut anywhere. -/
theorem lists_cut (hls : ∀ l ∈ ls, ¬kCRLF <:+: l) (hfilter : ls.filter isSourceLine = []) (n : ℕ) :
    Lists [] ((unlines kCRLF ls).take n) := by
  obtain ⟨complete,todo,piece,rfl,htake,hrest,_⟩ := exists_complete_lines (by decide) hls
    (List.take_append_drop n (unlines kCRLF ls))
  rw [List.filter_append, List.append_eq_nil_iff] at hfilter
  refine ⟨complete, piece, htake, fun l hl => hls l (List.mem_append_left _ hl), hfilter.1, ?_⟩
  rw [← Bool.not_eq_true, isSourceLine_iff]
  rintro ⟨w,hw,hpre⟩
  obtain ⟨hne,hcr,_⟩ := sourceWords_plain w hw
  obtain ⟨l,hl,hpl⟩ := prefix_line_of_prefix_piece hne hcr hpre hrest
  exact List.filter_eq_nil_iff.mp hfilter.2 l hl (isSourceLine_iff.mpr ⟨w, hw, hpl⟩)

theorem Lists.in_text {text : Bytes} (h : Lists lines text) (hl : l ∈ lines) : l <:+: text := by
  obtain ⟨ls,piece,rfl,_,rfl,_⟩ := h
  obtain ⟨pre,post,rfl⟩ := List.append_of_mem (List.mem_filter.mp hl).1
  exact ⟨unlines kCRLF pre, kCRLF ++ unlines kCRLF post ++ piece, by simp⟩

end Lists

namespace MediaSession
variable {s : MediaSession} {now : ℤ} {ip sessionName : Bytes}

theorem channelLines_plain (chn : MediaChannelId) : ∀ l ∈ channelLines chn,
    ¬kCRLF <:+: l ∧ isSourceLine l = true := by
  have hall : ∀ l ∈ channelLines chn, CR ∉ l ∧ isSourceLine l = true := by cases chn <;> decide
  intro l hl
  exact ⟨unbroken_of_no_cr (hall l hl).1, (hall l hl).2⟩

theorem headLines_plain (hip : ∀ b ∈ ip, Numeral.isDigit b = true ∨ b = 46) :
    ∀ l ∈ headLines now ip, ¬kCRLF <:+: l ∧ isSourceLine l = false := by
  intro l hl
  simp only [headLines, List.mem_cons, List.not_mem_nil, or_false] at hl
  rcases hl with rfl | rfl | rfl | rfl
  · exact ⟨by decide, by decide⟩
  · refine ⟨?_, rfl⟩
    have hnow := (printLD_token now).no_cr
    have haddress : CR ∉ ip := by
      intro hcr
      rcases hip CR hcr with hdigit | hdot
      · cases hdigit
      · cases hdot
    have horigin : CR ∉ ascii "o=- 9" := by decide
    have hnet : CR ∉ ascii " 1 IN IP4 " := by decide
    apply unbroken_of_no_cr
    simp only [List.mem_append, not_or]
    exact ⟨⟨⟨horigin, hnow⟩, hnet⟩, haddress⟩
  · exact ⟨by decide, by decide⟩
  · exact ⟨by decide, by decide⟩

/-- The lines of a name are no lines of channels. -/
theorem nameLines_plain (h : PlainName sessionName) : ∃ ls,
    unlines kCRLF (nameLines sessionName) = unlines kCRLF ls ∧
      ∀ l ∈ ls, ¬kCRLF <:+: l ∧ isSourceLine l = false := by
  unfold nameLines
  split
  · exact ⟨[], rfl, List.forall_mem_nil _⟩
  obtain ⟨l,ls,htext,hunbroken,hpre,hfollows⟩ :=
    exists_lines CR LF (ascii "s=" ++ Scanf.cString sessionName)
  refine ⟨l :: ls, ?_, ?_⟩
  · rw [unlines_cons, unlines_nil, List.append_nil]
    exact htext
  intro m hm
  refine ⟨hunbroken m hm, ?_⟩
  rw [← Bool.not_eq_true, isSourceLine_iff]
  rintro ⟨w,hw,hwm⟩
  obtain ⟨hne,_,hhead⟩ := sourceWords_plain w hw
  rcases List.mem_cons.mp hm with rfl | hm
  · -- the first line begins with `s`
    obtain ⟨x,xs,rfl⟩ := List.exists_cons_of_ne_nil hne
    have hx : x = 115 := (List.cons_prefix_cons.mp (hwm.trans hpre)).1
    rw [hx] at hhead
    exact hhead rfl
  · have hin : kCRLF ++ w <:+: ascii "s=" ++ Scanf.cString sessionName :=
      ((List.prefix_append_right_inj kCRLF).mpr hwm).isInfix.trans (hfollows m hm)
    have hs : ascii "s=" ++ Scanf.cString sessionName = 115 :: 61 :: Scanf.cString sessionName := rfl
    rw [hs, List.infix_cons_iff, List.infix_cons_iff] at hin
    rcases hin with hin | hin | hin
    · cases (List.cons_prefix_cons.mp hin).1
    · cases (List.cons_prefix_cons.mp hin).1
    · exact h w hw hin

/-- A description that is printed lists the channels, if it fits or there is none. -/
theorem printed_lists (hsdp : s.sdp = []) (hip : ∀ b ∈ ip, Numeral.isDigit b = true ∨ b = 46)
    (hname : PlainName sessionName)
    (hfit : s.channels ≠ [] → s.printedLength now ip sessionName ≤ 1023) :
    Lists (s.channels.flatMap channelLines) (s.getSdpMessage now ip sessionName).1 := by
  obtain ⟨ls,htext,hls⟩ := nameLines_plain hname
  have hlines : unlines kCRLF (s.sdpLines now ip sessionName) =
      unlines kCRLF (headLines now ip ++ ls ++ s.channels.flatMap channelLines) := by
    rw [sdpLines, sourceLines_channels, unlines_append, unlines_append, htext, unlines_append,
      unlines_append]
  have hfront : ∀ l ∈ headLines now ip ++ ls, ¬kCRLF <:+: l ∧ isSourceLine l = false := by
    intro l hl
    exact (List.mem_append.mp hl).elim (headLines_plain hip l) (hls l)
  have hsources : ∀ l ∈ s.channels.flatMap channelLines, ¬kCRLF <:+: l ∧ isSourceLine l = true := by
    intro l hl
    obtain ⟨chn,_,hl⟩ := List.mem_flatMap.mp hl
    exact channelLines_plain chn l hl
  have hall : ∀ l ∈ headLines now ip ++ ls ++ s.channels.flatMap channelLines, ¬kCRLF <:+: l := by
    intro l hl
    exact (List.mem_append.mp hl).elim (fun h => (hfront l h).1) (fun h => (hsources l h).1)
  have hfilter : (headLines now ip ++ ls ++ s.channels.flatMap channelLines).filter isSourceLine =
      s.channels.flatMap channelLines := by
    have hnone : (headLines now ip ++ ls).filter isSourceLine = [] := by
      rw [List.filter_eq_nil_iff]
      intro l hl
      rw [(hfront l hl).2]
      exact Bool.false_ne_true
    rw [List.filter_append, hnone, List.nil_append, List.filter_eq_self]
    exact fun l hl => (hsources l hl).2
  rw [s.getSdpMessage_text now ip sessionName hsdp, snprintf, List.nil_append]
  have hlength := s.length_sdpLines now ip sessionName
  rw [hlines] at hlength ⊢
  by_cases hchannels : s.channels = []
  · -- nothing is listed, so it does not matter where the array ends
    rw [hchannels] at hall hfilter ⊢
    exact lists_cut hall hfilter 1023
  · have hroom := hfit hchannels
    rw [List.take_of_length_le (by omega)]
    exact lists_whole hall hfilter

end MediaSession

namespace DescribedSession
variable {s s' : DescribedSession} {op : SdpOp} {out : List Description}

/-- What is kept lists the channels for which it was printed. -/
def Coherent (s : DescribedSession) : Prop :=
  s.session.sdp ≠ [] →
    Lists (s.described.flatMap MediaSession.channelLines) s.session.sdp

theorem step_coherent (hlocal : op.Local) (h : s.Coherent) (hkeeps : s.Keeps op)
    (hs : s.step op = .ok (s', out)) : s'.Coherent ∧ ∀ d ∈ out, d.Lists := by
  cases op with
  | addMediaSource channelId source =>
    obtain ⟨rfl,rfl⟩ := Prod.mk.inj (Except.ok.inj hs)
    exact ⟨h, List.forall_mem_nil _⟩
  | removeMediaSource channelId =>
    obtain ⟨rfl,rfl⟩ := Prod.mk.inj (Except.ok.inj hs)
    exact ⟨h, List.forall_mem_nil _⟩
  | getSdpMessage now ip sessionName =>
    obtain ⟨rfl,rfl⟩ := Prod.mk.inj (Except.ok.inj hs)
    rw [Keeps] at hkeeps
    have hout (text : Bytes) (hlists : Lists (s.session.channels.flatMap MediaSession.channelLines) text) :
        ∀ d ∈ [(⟨s.session, text⟩ : Description)], d.Lists := by
      intro d hd
      rw [List.mem_singleton.mp hd, Description.Lists, MediaSession.sourceLines_channels]
      exact hlists
    by_cases hsdp : s.session.sdp = []
    · -- printed now, for the channels there are now
      rw [if_pos hsdp] at hkeeps
      have hlists := MediaSession.printed_lists hsdp hlocal hkeeps.1 hkeeps.2
      refine ⟨?_, hout _ hlists⟩
      intro _
      rw [if_pos hsdp, MediaSession.getSdpMessage_sdp]
      exact hlists
    · -- kept, and the channels are still those of `described`
      rw [if_neg hsdp] at hkeeps
      have hlists := h hsdp
      rw [if_neg hsdp, s.session.getSdpMessage_cached now ip sessionName hsdp]
      refine ⟨h, hout _ ?_⟩
      rw [hkeeps]
      exact hlists

end DescribedSession

/-- In every run from a new session in which the description is kept as it should be, each one that
is returned lists the sources there are. -/
theorem descriptions_list_sources (lastMediaSessionId : UInt32) (rtspUrlSuffix : Bytes)
    (ops : List SdpOp) (hlocal : ∀ op ∈ ops, op.Local)
    (hkeeps : Runs.Along DescribedSession.step DescribedSession.Keeps
      (DescribedSession.creatNew lastMediaSessionId rtspUrlSuffix) ops) :
    ∃ s out, Runs.run DescribedSession.step
        (DescribedSession.creatNew lastMediaSessionId rtspUrlSuffix) ops = .ok (s, out) ∧
      ∀ d ∈ out, d.Lists := by
  have hstep (s : DescribedSession) (op : SdpOp) (ops : List SdpOp) (acc : List Description)
      (h : s.Coherent ∧ (∀ o ∈ op :: ops, o.Local) ∧ ∀ d ∈ acc, d.Lists) (hop : s.Keeps op) :
      ∃ s' out, s.step op = .ok (s', out) ∧
        s'.Coherent ∧ (∀ o ∈ ops, o.Local) ∧ ∀ d ∈ acc ++ out, d.Lists := by
    obtain ⟨hcoherent,hops,hacc⟩ := h
    obtain ⟨s',out,hs⟩ : ∃ s' out, s.step op = .ok (s', out) := by cases op <;> exact ⟨_, _, rfl⟩
    obtain ⟨hcoherent',hout⟩ := DescribedSession.step_coherent (hops op List.mem_cons_self) hcoherent hop hs
    refine ⟨s', out, hs, hcoherent', fun o ho => hops o (List.mem_cons_of_mem _ ho), ?_⟩
    intro d hd
    exact (List.mem_append.mp hd).elim (hacc d) (hout d)
  obtain ⟨s,out,hrun,_,_,hout⟩ := Runs.run_along
    (fun s ops acc => s.Coherent ∧ (∀ o ∈ ops, o.Local) ∧ ∀ d ∈ acc, d.Lists) hstep
    (show (DescribedSession.creatNew lastMediaSessionId rtspUrlSuffix).Coherent ∧ _ ∧ _ from
      ⟨fun hsdp => absurd rfl hsdp, hlocal, List.forall_mem_nil _⟩) hkeeps
  exact ⟨s, out, hrun, hout⟩

/-- A source is replaced between two calls. -/
def replacedSource : List SdpOp :=
  [.addMediaSource .channel_0 (H264Source.createNew 25), .getSdpMessage 5 (ascii "10.0.0.1") (ascii "camera"),
    .removeMediaSource .channel_0, .addMediaSource .channel_0 (H264Source.createNew 30),
    .getSdpMessage 6 (ascii "10.0.0.1") []]

theorem descriptions_list_replaced : ∃ s out, Runs.run DescribedSession.step
    (DescribedSession.creatNew 1 (ascii "s")) replacedSource = .ok (s, out) ∧ ∀ d ∈ out, d.Lists := by
  apply descriptions_list_sources 1 (ascii "s") replacedSource
  · have hip : ∀ b ∈ ascii "10.0.0.1", Numeral.isDigit b = true ∨ b = 46 := by decide +kernel
    intro op hop
    simp only [replacedSource, List.mem_cons, List.not_mem_nil, or_false] at hop
    rcases hop with rfl | rfl | rfl | rfl | rfl
    · trivial
    · exact hip
    · trivial
    · trivial
    · exact hip
  · refine Runs.along_cons trivial rfl (Runs.along_cons ?_ rfl (Runs.along_cons trivial rfl
      (Runs.along_cons trivial rfl (Runs.along_cons ?_ rfl trivial))))
    · exact ⟨by decide, fun _ => by decide⟩
    · rfl

/-- A source is added after the first call. -/
def addedSource : List SdpOp :=
  [.addMediaSource .channel_0 (H264Source.createNew 25), .getSdpMessage 5 (ascii "10.0.0.1") (ascii "camera"),
    .addMediaSource .channel_1 (H264Source.createNew 25), .getSdpMessage 6 (ascii "10.0.0.1") (ascii "camera")]

theorem descriptions_list_fails : ∃ s out, Runs.run DescribedSession.step
    (DescribedSession.creatNew 1 (ascii "s")) addedSource = .ok (s, out) ∧ ¬∀ d ∈ out, d.Lists := by
  refine ⟨_, _, rfl, ?_⟩
  intro hall
  have hlast := hall _ (List.mem_cons_of_mem _ List.mem_cons_self)
  have hin : ascii "a=control:track1" <:+: _ := Lists.in_text hlast (by decide)
  revert hin
  decide +kernel

end IdealServer

import IdealServer.UdpAddressing

/-! The channel that a SETUP selects, against the tracks that the description of a session
advertises. -/
namespace IdealServer
open Search

/-- The number that `getSdpMessage` prints behind `a=control:track`. -/
def MediaChannelId.number : MediaChannelId → Bytes
  | .channel_0 => ascii "0"
  | .channel_1 => ascii "1"

/-- The control attribute of a channel, which clients put behind the URL of the session. -/
def trackName (d : MediaChannelId) : Bytes := ascii "track" ++ d.number

/-- The parser's request after header texts that come one after the other. -/
def RtspRequest.headersAfter (q : RtspRequest) (messages : List Bytes) : RtspRequest :=
  messages.foldl (fun q message => (q.parseHeadersLine message).2) q

/-- Whichever text makes the headers complete, and whatever came before it, the channel is `d`. -/
def RtspRequest.Selects (q : RtspRequest) (d : MediaChannelId) : Prop :=
  ∀ earlier message, (q.headersAfter earlier).state ≠ .kGotAll →
    ((q.headersAfter earlier).parseHeadersLine message).2.state = .kGotAll →
      ((q.headersAfter earlier).parseHeadersLine message).2.channelId = d

section Selects
variable {r : Request} {q : RtspRequest} {d : MediaChannelId} {s message : Bytes}

/-- The text that completes the headers of a SETUP is followed by the choice of the channel. -/
theorem parseHeadersLine_selects (hm : q.method = .SETUP)
    (hurl : q.requestLineParam .url = some (r.url, 0)) (hs : q.state ≠ .kGotAll)
    (h : (q.parseHeadersLine message).2.state = .kGotAll) :
    (q.parseHeadersLine message).2.channelId = r.channel := by
  obtain ⟨hmethod,hline,hstate⟩ := parseCSeq_frame q message
  obtain ⟨_,_,hline',hstate',_⟩ := parseTransport_frame (q.parseCSeq message).2 message
  have hif : q.parseHeadersLine message =
      if (q.parseCSeq message).1 = false ∧ (q.parseCSeq message).2.headerLineParam .cseq = none then
        (false, (q.parseCSeq message).2)
      else (true, (q.parseCSeq message).2.parseMethodHeaders message) := rfl
  have hsetup : (q.parseCSeq message).2.parseMethodHeaders message =
      if ((q.parseCSeq message).2.parseTransport message).1 then
        { ((q.parseCSeq message).2.parseTransport message).2.parseMediaChannel with
          state := .kGotAll }
      else ((q.parseCSeq message).2.parseTransport message).2 := by
    rw [RtspRequest.parseMethodHeaders, hmethod, hm]
  rw [hif] at h ⊢
  by_cases hnone : (q.parseCSeq message).1 = false ∧
      (q.parseCSeq message).2.headerLineParam .cseq = none
  · rw [if_pos hnone] at h
    exact absurd (hstate.symm.trans h) hs
  · rw [if_neg hnone, hsetup] at h ⊢
    by_cases hok : ((q.parseCSeq message).2.parseTransport message).1 = true
    · rw [if_pos hok, parseMediaChannel_eq r.url 0 (by rw [hline', hline, hurl])]
      rfl
    · rw [if_neg hok] at h
      exact absurd ((hstate'.trans hstate).symm.trans h) hs

theorem headersAfter_frame (messages : List Bytes) :
    (q.headersAfter messages).method = q.method ∧
      (q.headersAfter messages).requestLineParam = q.requestLineParam := by
  induction messages generalizing q with
  | nil => exact ⟨rfl, rfl⟩
  | cons message rest ih =>
    have heff := parseHeadersLine_effect q message
    obtain ⟨h1,h2⟩ := @ih (q.parseHeadersLine message).2
    exact ⟨h1.trans heff.method, h2.trans heff.requestLineParam⟩

/-- The channel is the one that the URL names, wherever in the URL it does so. -/
theorem accepted_selects_iff (h : r.WellFormed) (hm : r.method = .SETUP) (hq : q.Cleared)
    (hs : q.state = .kParseRequestLine) : (q.accepted r).Selects d ↔ r.channel = d := by
  have hurl : (q.accepted r).requestLineParam .url = some (r.url, 0) := by
    rw [RtspRequest.accepted, (hq hs).1]
    rfl
  constructor
  · intro hselects
    -- the headers of the request itself are complete
    have heff := parseHeadersLine_effect (q.accepted r) r.headerText
    have hcomplete : (q.accepted r).headersComplete r.headerText = true :=
      headersComplete_headerText h _
    have hgot : ((q.accepted r).parseHeadersLine r.headerText).2.state = .kGotAll := by
      rw [heff.state, hcomplete]
      rfl
    have hstate : (q.accepted r).state ≠ .kGotAll := by
      intro hgot
      cases hgot
    rw [← parseHeadersLine_selects hm hurl hstate hgot]
    exact hselects [] r.headerText hstate hgot
  · rintro rfl earlier message hstate hgot
    obtain ⟨hmethod,hline⟩ := @headersAfter_frame (q.accepted r) earlier
    apply parseHeadersLine_selects _ _ hstate hgot
    · rw [hmethod]
      exact hm
    · rw [hline, hurl]

end Selects

/-- Where `track1` lies in the URL of a track. -/
theorem track1_infix_url {r : Request} {s : Bytes} {d : MediaChannelId}
    (hs : r.suffix = s ++ 47 :: trackName d) : ascii "track1" <:+: r.url ↔
      d = .channel_1 ∨ ascii "track1" <:+: r.host ∨ ascii "track1" <:+: s := by
  have hcolon : (58:UInt8) ∉ ascii "track1" := by decide
  have hslash : (47:UInt8) ∉ ascii "track1" := by decide
  have hurl : r.url = ascii "rtsp:/" ++ 47 :: (r.host ++ 58 :: (Numeral.decimal r.port.toNat ++
      47 :: (s ++ 47 :: trackName d))) := by
    have hscheme : ascii "rtsp://" = ascii "rtsp:/" ++ [47] := by decide
    rw [Request.url, hs, hscheme]
    simp
  have hscheme : ¬ascii "track1" <:+: ascii "rtsp:/" := by
    rw [← search_eq_none]
    decide
  have hport : ¬ascii "track1" <:+: Numeral.decimal r.port.toNat := by
    intro hin
    have hdigit := Numeral.isDigit_of_mem_decimal (hin.mem (show (116:UInt8) ∈ _ by decide))
    contradiction
  have hname : ascii "track1" <:+: trackName d ↔ d = .channel_1 := by
    cases d with
    | channel_0 =>
      have hnone : search (ascii "track1") (trackName .channel_0) = none := by decide
      rw [search_eq_none] at hnone
      exact iff_of_false hnone (by decide)
    | channel_1 => exact iff_of_true (List.infix_refl _) rfl
  rw [hurl, Lines.infix_append_cons_iff hslash, Lines.infix_append_cons_iff hcolon,
    Lines.infix_append_cons_iff hslash, Lines.infix_append_cons_iff hslash, hname]
  constructor
  · rintro (h | h | h | h | h)
    · exact absurd h hscheme
    · exact .inr (.inl h)
    · exact absurd h hport
    · exact .inr (.inr h)
    · exact .inl h
  · rintro (h | h | h)
    · exact .inr (.inr (.inr (.inr h)))
    · exact .inr (.inl h)
    · exact .inr (.inr (.inr (.inl h)))

theorem channel_eq_iff {r : Request} {s : Bytes} {d : MediaChannelId}
    (hs : r.suffix = s ++ 47 :: trackName d) : r.channel = d ↔
      d = .channel_1 ∨ (¬ascii "track1" <:+: r.host ∧ ¬ascii "track1" <:+: s) := by
  have htrack1 := track1_infix_url hs
  cases hsearch : search (ascii "track1") r.url with
  | some pos =>
    have hin : ascii "track1" <:+: r.url := by
      by_contra hnot
      rw [search_eq_none.mpr hnot] at hsearch
      cases hsearch
    have hchannel : r.channel = .channel_1 := by
      rw [Request.channel, hsearch]
      rfl
    rw [hchannel]
    constructor
    · rintro rfl
      exact .inl rfl
    · rintro (rfl | ⟨hhost,hsuffix⟩)
      · rfl
      · rcases htrack1.mp hin with rfl | h | h
        · rfl
        · exact absurd h hhost
        · exact absurd h hsuffix
  | none =>
    have hout : ¬ascii "track1" <:+: r.url := search_eq_none.mp hsearch
    have hchannel : r.channel = .channel_0 := by
      rw [Request.channel, hsearch]
      rfl
    rw [htrack1, not_or, not_or] at hout
    obtain ⟨hd,hhost,hsuffix⟩ := hout
    have hzero : d = .channel_0 := by
      cases d with
      | channel_0 => rfl
      | channel_1 => exact absurd rfl hd
    exact iff_of_true (hchannel.trans hzero.symm) (.inr ⟨hhost, hsuffix⟩)

/-- A SETUP of the track `d` of the session `s` selects the channel `d`, except that a `track1` in the
host or in `s` is taken for the track. -/
theorem setup_selects_track_iff (r : Request) (h : r.WellFormed) (hm : r.method = .SETUP) (s : Bytes)
    (d : MediaChannelId) (hs : r.suffix = s ++ 47 :: trackName d) (q : RtspRequest)
    (hstate : q.state = .kParseRequestLine) (hq : q.Cleared) :
    ∃ q1, q.parseRequestLine r.requestLine = .ok (true, q1) ∧
      (q1.Selects d ↔
        d = .channel_1 ∨ (¬ascii "track1" <:+: r.host ∧ ¬ascii "track1" <:+: s)) := by
  refine ⟨q.accepted r, parseRequestLine_requestLine h q, ?_⟩
  rw [accepted_selects_iff h hm hq hstate]
  exact channel_eq_iff hs

def trackRequest (s : Bytes) (d : MediaChannelId) : Request :=
  ⟨.SETUP, ascii "cam", 554, s ++ 47 :: trackName d, 2, [cseqHeader 2, transportHeader 5000 5001]⟩

/-- The tracks of `live` are told apart. -/
theorem setup_selects_track_live : ∃ q1,
    (RtspRequest.new blankRequest).parseRequestLine
      (trackRequest (ascii "live") .channel_0).requestLine = .ok (true, q1) ∧
      q1.Selects .channel_0 := by
  obtain ⟨q1,hline,hselects⟩ := setup_selects_track_iff (trackRequest (ascii "live") .channel_0)
    (by constructor <;> decide +kernel) rfl (ascii "live") .channel_0 rfl
    (RtspRequest.new blankRequest) rfl (fun _ => ⟨rfl, rfl⟩)
  refine ⟨q1, hline, hselects.mpr (.inr ⟨?_, ?_⟩)⟩
  · rw [← search_eq_none]
    decide
  · rw [← search_eq_none]
    decide

/-- The first track of a session whose name begins with `track1`. -/
theorem setup_selects_track_fails : ¬∃ q1,
    (RtspRequest.new blankRequest).parseRequestLine
      (trackRequest (ascii "track1-night") .channel_0).requestLine = .ok (true, q1) ∧
      q1.Selects .channel_0 := by
  rintro ⟨q1,hline,hselects⟩
  have hwf : (trackRequest (ascii "track1-night") .channel_0).WellFormed := by
    constructor <;> decide +kernel
  have haccepted := parseRequestLine_requestLine hwf (RtspRequest.new blankRequest)
  obtain ⟨_,rfl⟩ := Prod.mk.inj (Except.ok.inj (hline.symm.trans haccepted))
  have hchannel := (accepted_selects_iff hwf rfl (fun _ => ⟨rfl, rfl⟩) rfl).mp hselects
  revert hchannel
  decide

end IdealServer

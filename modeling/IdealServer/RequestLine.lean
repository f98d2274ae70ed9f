import IdealServer.RtspText

/-! The arrays into which `parseRequestLine` scans the words of a request line and the parts of its URL. No
conversion has a field width, so what fits is decided by the line. -/
namespace IdealServer

/-- A call that runs over an array has no result. -/
theorem not_ok_of_error {α : Type*} {x : Except Fault α} {fault : Fault} (h : x = .error fault) :
    ¬∃ a, x = .ok a := by
  rintro ⟨a,hok⟩
  cases h.symm.trans hok

/-- What a format that ends in `/%s` reads with its `%s`. -/
def behindSlash : Bytes → Bytes
  | 47 :: suffix => suffix
  | _ => []

/-- The suffix that `%[^:]:%hu/%s` reads, if it comes to its `%s`. -/
def behindPort (u : Bytes) : Bytes :=
  if u.head? = some 58 then []
  else
    match Scanf.strtoul (u.dropWhile (· ≠ 58)).tail with
    | some (_, rest) => behindSlash rest
    | none => []

/-- The second format is tried where the first one finds no suffix. -/
structure UrlFits (u : Bytes) : Prop where
  host : (u.takeWhile (· ≠ 58)).length < 16
  suffix : (behindPort u).length < 64
  whole : behindPort u = [] → u.head? ≠ some 47 →
    (u.takeWhile (· ≠ 47)).length < 16 ∧ (behindSlash (u.dropWhile (· ≠ 47))).length < 64

/-- An absent word is empty. -/
structure LineFits (line : Bytes) : Prop where
  method : (Scanf.word line).length < 32
  url : (Scanf.word (Scanf.behind line)).length < 128
  version : (Scanf.word (Scanf.behind (Scanf.behind line))).length < 16
  address : Scanf.word (Scanf.behind (Scanf.behind line)) ≠ [] → Method.ofString (Scanf.word line) ≠ .NONE →
    (Scanf.word (Scanf.behind line)).take 7 = ascii "rtsp://" →
      UrlFits ((Scanf.word (Scanf.behind line)).drop 7)

/-- No white space: the URL is a word of the line. -/
def Unspaced (u : Bytes) : Prop := ∀ b ∈ u, Scanf.isSpace b = false

section Url
variable {u : Bytes}

theorem behindSlash_suffix (u : Bytes) : behindSlash u <:+ u := by
  unfold behindSlash
  split
  · exact List.suffix_cons _ _
  · exact List.nil_suffix

theorem Unspaced.suffix {v : Bytes} (h : Unspaced u) (hv : v <:+ u) : Unspaced v := fun b hb => h b (hv.mem hb)

/-- The part `/%s` of both formats. -/
theorem scan_slash (h : Unspaced u) (cap : ℕ) : Scanf.scan [.lit 47, .str cap] u =
    if behindSlash u = [] then some []
    else if (behindSlash u).length < cap then some [.text (behindSlash u)] else none := by
  have hplain := h.suffix (behindSlash_suffix u)
  have hstr : Scanf.scan [.str cap] (behindSlash u) =
      if behindSlash u = [] then some []
      else if (behindSlash u).length < cap then some [.text (behindSlash u)] else none := by
    rw [Scanf.scan_str_word, Scanf.word_plain hplain]
    rfl
  rw [← hstr]
  unfold behindSlash
  split
  case h_1 suffix => exact Scanf.scan_lit suffix
  case h_2 hne =>
    cases u with
    | nil => rfl
    | cons b rest =>
      have hb : b ≠ 47 := fun hb => hne rest (by rw [hb])
      show (if b = 47 then Scanf.scan [.str cap] rest else some []) = some []
      rw [if_neg hb]

theorem takeWhile_ne_nil {c : UInt8} : u.takeWhile (· ≠ c) = [] ↔ u = [] ∨ u.head? = some c := by
  cases u with
  | nil => simp
  | cons b rest =>
    by_cases hb : b = c
    · rw [hb]
      simp
    · simp [hb]

theorem dropWhile_ne_head {c : UInt8} : u.dropWhile (· ≠ c) = [] ∨
    u.dropWhile (· ≠ c) = c :: (u.dropWhile (· ≠ c)).tail := by
  cases hu : u.dropWhile (· ≠ c) with
  | nil => exact Or.inl rfl
  | cons b rest =>
    have hb : b = c := by
      have hhead := List.head?_dropWhile_not (· ≠ c) u
      rw [hu] at hhead
      simpa using hhead
    rw [hb]
    exact Or.inr rfl

/-- The first format stores three values, or fewer without a suffix. -/
theorem scan_hostPort (h : Unspaced u) (hhost : (u.takeWhile (· ≠ 58)).length < 16) (cap : ℕ) :
    ∃ short port, short.length < 3 ∧ Scanf.scan [.notIn 58 16, .lit 58, .uint 16, .lit 47, .str cap] u =
      if behindPort u = [] then some short
      else if (behindPort u).length < cap then
        some [.text (u.takeWhile (· ≠ 58)), .num port, .text (behindPort u)]
      else none := by
  rw [Scanf.scan_notIn_eq]
  dsimp only
  by_cases hnil : u.takeWhile (· ≠ 58) = []
  · -- `%[^:]` matches nothing
    have hport : behindPort u = [] := by
      rcases takeWhile_ne_nil.mp hnil with rfl | hhead
      · rfl
      · rw [behindPort, if_pos hhead]
    refine ⟨[], 0, by decide, ?_⟩
    rw [if_pos hnil, if_pos hport]
  · have hhead : ¬u.head? = some 58 := fun hhead => hnil (takeWhile_ne_nil.mpr (Or.inr hhead))
    rw [if_neg hnil, if_pos hhost, behindPort, if_neg hhead]
    have hplain := h.suffix (List.dropWhile_suffix (l := u) (fun b => decide (b ≠ 58)))
    rcases dropWhile_ne_head (u := u) (c := 58) with hrest | hrest
    · -- no colon
      rw [hrest]
      exact ⟨[.text (u.takeWhile (· ≠ 58))], 0, by simp, rfl⟩
    · have hplain := hplain.suffix (List.tail_suffix _)
      rw [hrest, Scanf.scan_lit, Scanf.scan_uint_eq, Scanf.dropWhile_plain hplain, List.tail_cons]
      cases hnum : Scanf.strtoul (u.dropWhile (· ≠ 58)).tail with
      -- the host is all that is stored
      | none => exact ⟨[.text (u.takeWhile (· ≠ 58))], 0, by simp, rfl⟩
      | some r =>
        obtain ⟨v,rest⟩ := r
        dsimp only
        rw [scan_slash (hplain.suffix (Scanf.strtoul_suffix hnum)) cap]
        refine ⟨[.text (u.takeWhile (· ≠ 58)), .num (v%2^16)], v%2^16, by simp, ?_⟩
        by_cases hsuffix : behindSlash rest = []
        · rw [if_pos hsuffix, if_pos hsuffix]
          rfl
        · rw [if_neg hsuffix, if_neg hsuffix]
          by_cases hlen : (behindSlash rest).length < cap
          · rw [if_pos hlen, if_pos hlen]
            rfl
          · rw [if_neg hlen, if_neg hlen]
            rfl

/-- The second format. -/
theorem scan_hostOnly (h : Unspaced u) :
    (∃ vals, Scanf.scan [.notIn 47 16, .lit 47, .str 64] u = some vals) ↔
      (u.head? ≠ some 47 →
        (u.takeWhile (· ≠ 47)).length < 16 ∧ (behindSlash (u.dropWhile (· ≠ 47))).length < 64) := by
  rw [Scanf.scan_notIn_eq]
  dsimp only
  by_cases hnil : u.takeWhile (· ≠ 47) = []
  · rw [if_pos hnil]
    refine ⟨fun _ hhead => ?_, fun _ => ⟨[], rfl⟩⟩
    rcases takeWhile_ne_nil.mp hnil with rfl | hslash
    · decide
    · exact absurd hslash hhead
  · have hhead : u.head? ≠ some 47 := fun hhead => hnil (takeWhile_ne_nil.mpr (Or.inr hhead))
    rw [if_neg hnil, scan_slash (h.suffix (List.dropWhile_suffix _)) 64]
    by_cases hhost : (u.takeWhile (· ≠ 47)).length < 16
    · rw [if_pos hhost]
      by_cases hsuffix : behindSlash (u.dropWhile (· ≠ 47)) = []
      · rw [if_pos hsuffix, hsuffix]
        exact ⟨fun _ _ => ⟨hhost, by decide⟩, fun _ => ⟨_, rfl⟩⟩
      · rw [if_neg hsuffix]
        by_cases hlen : (behindSlash (u.dropWhile (· ≠ 47))).length < 64
        · rw [if_pos hlen]
          exact ⟨fun _ _ => ⟨hhost, hlen⟩, fun _ => ⟨_, rfl⟩⟩
        · rw [if_neg hlen]
          constructor
          · rintro ⟨_,hvals⟩
            cases hvals
          · intro hfits
            exact absurd (hfits hhead).2 hlen
    · rw [if_neg hhost]
      constructor
      · rintro ⟨_,hvals⟩
        cases hvals
      · intro hfits
        exact absurd (hfits hhead).1 hhost

theorem sscanf_ok_iff {ds : List Scanf.Directive} {message : Bytes} :
    (∃ vals, sscanf ds message = .ok vals) ↔ ∃ vals, Scanf.scan ds (Scanf.cString message) = some vals := by
  unfold sscanf
  cases Scanf.scan ds (Scanf.cString message) with
  | none =>
    constructor
    · rintro ⟨_,h⟩
      cases h
    · rintro ⟨_,h⟩
      cases h
  | some vals => exact ⟨fun _ => ⟨vals, rfl⟩, fun _ => ⟨vals, rfl⟩⟩

/-- Where the first format stores fewer than three values, all depends on the second. -/
theorem parseUrl_second {short : List Scanf.Value} (hshort : short.length < 3)
    (hfirst : sscanf [.notIn 58 16, .lit 58, .uint 16, .lit 47, .str 64] u = .ok short) :
    (∃ x, parseUrl u = .ok x) ↔ ∃ vals, sscanf [.notIn 47 16, .lit 47, .str 64] u = .ok vals := by
  unfold parseUrl
  rw [hfirst]
  simp only [bind, Except.bind]
  split
  case h_1 => contradiction
  case h_2 =>
    cases sscanf [.notIn 47 16, .lit 47, .str 64] u with
    | error e => exact iff_of_false (not_ok_of_error rfl) (not_ok_of_error rfl)
    | ok vals =>
      refine ⟨fun _ => ⟨vals, rfl⟩, fun _ => ?_⟩
      dsimp only
      split
      · exact ⟨_, rfl⟩
      · exact ⟨_, rfl⟩

theorem parseUrl_ok_iff (h : Unspaced u) (h0 : ∀ b ∈ u, b ≠ 0) : (∃ x, parseUrl u = .ok x) ↔ UrlFits u := by
  have hc : Scanf.cString u = u := Scanf.cString_eq h0
  by_cases hhost : (u.takeWhile (· ≠ 58)).length < 16
  · obtain ⟨short,port,hshort,hscan⟩ := scan_hostPort h hhost 64
    by_cases hsuffix : behindPort u = []
    · -- the attempt fails, and the second format decides
      rw [if_pos hsuffix] at hscan
      have hfirst : sscanf [.notIn 58 16, .lit 58, .uint 16, .lit 47, .str 64] u = .ok short := by
        rw [sscanf, hc, hscan]
      rw [parseUrl_second hshort hfirst, sscanf_ok_iff, hc, scan_hostOnly h]
      constructor
      · exact fun hfits => ⟨hhost, by rw [hsuffix]; decide, fun _ => hfits⟩
      · exact fun hfits => hfits.whole hsuffix
    · rw [if_neg hsuffix] at hscan
      by_cases hlen : (behindPort u).length < 64
      · rw [if_pos hlen] at hscan
        constructor
        · exact fun _ => ⟨hhost, hlen, fun hnil => absurd hnil hsuffix⟩
        · intro _
          refine ⟨some (u.takeWhile (· ≠ 58), UInt16.ofNat port, behindPort u), ?_⟩
          rw [parseUrl, sscanf, hc, hscan]
          rfl
      · rw [if_neg hlen] at hscan
        have herror : parseUrl u = .error .arrayOverflow := by
          rw [parseUrl, sscanf, hc, hscan]
          rfl
        exact iff_of_false (not_ok_of_error herror) (fun hfits => hlen hfits.suffix)
  · -- what stands in front of the colon does not fit
    have hne : ¬u.takeWhile (· ≠ 58) = [] := by
      intro hnil
      rw [hnil] at hhost
      exact hhost (by decide)
    have hscan : Scanf.scan [.notIn 58 16, .lit 58, .uint 16, .lit 47, .str 64] u = none := by
      rw [Scanf.scan_notIn_eq]
      dsimp only
      rw [if_neg hne, if_neg hhost]
    have herror : parseUrl u = .error .arrayOverflow := by
      rw [parseUrl, sscanf, hc, hscan]
      rfl
    exact iff_of_false (not_ok_of_error herror) (fun hfits => hhost hfits.host)

end Url

section Line
variable {r : RtspRequest} {message : Bytes}

theorem parseRequestLine_short {vals : List Scanf.Value} (hlen : vals.length < 3)
    (hs : sscanf [.str 32, .ws, .str 128, .ws, .str 16] message = .ok vals) :
    r.parseRequestLine message = .ok (false, r) := by
  unfold RtspRequest.parseRequestLine
  rw [hs]
  simp only [bind, Except.bind]
  split
  case h_1 => contradiction
  case h_2 => rfl

/-- A line of three words goes through if its URL does. -/
theorem parseRequestLine_words {method url version : Bytes}
    (hs : sscanf [.str 32, .ws, .str 128, .ws, .str 16] message = .ok [.text method, .text url, .text version]) :
    (∃ result, r.parseRequestLine message = .ok result) ↔
      (Method.ofString method ≠ .NONE → url.take 7 = ascii "rtsp://" →
        ∃ x, parseUrl (url.drop 7) = .ok x) := by
  unfold RtspRequest.parseRequestLine
  rw [hs]
  simp only [bind, Except.bind]
  by_cases hmethod : Method.ofString method = .NONE
  · rw [if_pos hmethod]
    exact ⟨fun _ hknown => absurd hmethod hknown, fun _ => ⟨_, rfl⟩⟩
  · rw [if_neg hmethod]
    by_cases hprefix : url.take 7 = ascii "rtsp://"
    · rw [if_neg (not_not.mpr hprefix)]
      cases parseUrl (url.drop 7) with
      | error e => exact iff_of_false (not_ok_of_error rfl) (fun h => not_ok_of_error rfl (h hmethod hprefix))
      | ok x =>
        refine ⟨fun _ _ _ => ⟨x, rfl⟩, fun _ => ?_⟩
        cases x with
        | none => exact ⟨_, rfl⟩
        | some address => exact ⟨_, rfl⟩
    · rw [if_pos hprefix]
      exact ⟨fun _ _ h => absurd h hprefix, fun _ => ⟨_, rfl⟩⟩

end Line

/-- The conversions of a request line stay inside their arrays exactly if the words of the line, up to a NUL,
and the parts of its URL fit. -/
theorem request_line_fits (r : RtspRequest) (message : Bytes) :
    (∃ result, r.parseRequestLine message = .ok result) ↔ LineFits (Scanf.cString message) := by
  generalize hline : Scanf.cString message = line
  have hscan := @Scanf.scan_words 32 128 16 (by decide) (by decide) (by decide) line
  by_cases hfits : (Scanf.word line).length < 32 ∧ (Scanf.word (Scanf.behind line)).length < 128 ∧
      (Scanf.word (Scanf.behind (Scanf.behind line))).length < 16
  · rw [if_pos hfits] at hscan
    by_cases hversion : Scanf.word (Scanf.behind (Scanf.behind line)) = []
    · -- fewer than three words
      have hshort := Scanf.present_short hversion
      have hok := @parseRequestLine_short r message _ hshort (by rw [sscanf, hline, hscan])
      rw [hok]
      constructor
      · exact fun _ => ⟨hfits.1, hfits.2.1, hfits.2.2, fun hne => absurd hversion hne⟩
      · exact fun _ => ⟨_, rfl⟩
    · rw [Scanf.present_words hversion] at hscan
      rw [parseRequestLine_words (by rw [sscanf, hline, hscan]; rfl)]
      -- the bytes of the URL are bytes of the line
      have hplain : Unspaced ((Scanf.word (Scanf.behind line)).drop 7) :=
        fun b hb => (Scanf.mem_of_mem_word (List.mem_of_mem_drop hb)).2
      have hzero : ∀ b ∈ (Scanf.word (Scanf.behind line)).drop 7, b ≠ 0 := by
        intro b hb
        have hmem := Scanf.mem_of_mem_behind (Scanf.mem_of_mem_word (List.mem_of_mem_drop hb)).1
        rw [← hline] at hmem
        simpa using List.mem_takeWhile_imp hmem
      rw [parseUrl_ok_iff hplain hzero]
      constructor
      · exact fun haddress => ⟨hfits.1, hfits.2.1, hfits.2.2, fun _ => haddress⟩
      · exact fun hline => hline.address hversion
  · rw [if_neg hfits] at hscan
    have herror : r.parseRequestLine message = .error .arrayOverflow := by
      rw [RtspRequest.parseRequestLine, sscanf, hline, hscan]
      rfl
    exact iff_of_false (not_ok_of_error herror) (fun hline => hfits ⟨hline.method, hline.url, hline.version⟩)

/-- An ordinary address without a port: `%[^:]` reads the path, too. -/
theorem request_line_fits_fails : ∃ message, ∀ r : RtspRequest,
    r.parseRequestLine message = .error .arrayOverflow := by
  refine ⟨ascii "DESCRIBE rtsp://192.168.1.100/live RTSP/1.0", ?_⟩
  intro r
  have hline : sscanf [.str 32, .ws, .str 128, .ws, .str 16]
      (ascii "DESCRIBE rtsp://192.168.1.100/live RTSP/1.0") =
        .ok [.text (ascii "DESCRIBE"), .text (ascii "rtsp://192.168.1.100/live"), .text (ascii "RTSP/1.0")] := by
    decide +kernel
  have hurl : parseUrl ((ascii "rtsp://192.168.1.100/live").drop 7) = .error .arrayOverflow := by
    decide +kernel
  rw [RtspRequest.parseRequestLine, hline]
  simp only [bind, Except.bind]
  rw [if_neg (by decide +kernel), if_neg (by decide +kernel), hurl]

end IdealServer

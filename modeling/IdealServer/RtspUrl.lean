import IdealServer.RequestLine

/-! The URL in a request line and in `Rtsp::parseRtspUrl`: what both read from an address with a port
and from one without. -/
namespace IdealServer

/-- The two formats on what stands behind `rtsp://`, with an array of `cap` bytes for the suffix. -/
def scanUrl (cap : ℕ) (rest : Bytes) : Except Fault (Option (Bytes × UInt16 × Bytes)) := do
  match ← sscanf [.notIn 58 16, .lit 58, .uint 16, .lit 47, .str cap] rest with
  | [.text ip, .num port, .text suffix] => return some (ip, UInt16.ofNat port, suffix)
  | _ =>
    match ← sscanf [.notIn 47 16, .lit 47, .str cap] rest with
    | [.text ip, .text suffix] => return some (ip, 554, suffix)
    | _ => return none

theorem parseUrl_eq (rest : Bytes) : parseUrl rest = scanUrl 64 rest := rfl

structure RtspUrlInfo where
  url : Bytes
  ip : Bytes
  port : UInt16
  suffix : Bytes
deriving DecidableEq

/-- `Rtsp::parseRtspUrl` on the field `_rtspUrlInfo`; the scheme is skipped and not looked at. -/
def parseRtspUrl (info : RtspUrlInfo) (url : Bytes) : Except Fault (Bool × RtspUrlInfo) :=
  if url.length < 7 then .error .outOfBounds
  else do
    match ← scanUrl 128 (url.drop 7) with
    | some (ip, port, suffix) => return (true, ⟨url, ip, port, suffix⟩)
    | none => return (false, info)

def portUrl (host : Bytes) (port : UInt16) (suffix : Bytes) : Bytes :=
  ascii "rtsp://" ++ (host ++ 58 :: (Numeral.decimal port.toNat ++ 47 :: suffix))

def plainUrl (host suffix : Bytes) : Bytes := ascii "rtsp://" ++ (host ++ 47 :: suffix)

/-- A host and a suffix as they stand in a URL. -/
structure UrlParts (host suffix : Bytes) : Prop where
  host_ne : host ≠ []
  host_length : host.length < 16
  host_plain : 58 ∉ host ∧ 47 ∉ host
  host_unspaced : Unspaced host
  suffix_ne : suffix ≠ []
  suffix_length : suffix.length < 64
  suffix_unspaced : Unspaced suffix

/-- Behind the first colon of the suffix there are a number, a slash and something else. -/
def MistakenPort (suffix : Bytes) : Prop :=
  ∃ v rest, Scanf.strtoul (suffix.dropWhile (· ≠ 58)).tail = some (v, rest) ∧ behindSlash rest ≠ []

/-- The request line and `parseRtspUrl` both accept the URL, with these values. -/
def ReadAs (url host : Bytes) (port : UInt16) (suffix : Bytes) : Prop :=
  (∀ (q : RtspRequest) (m : Method), m ≠ .RTCP ∧ m ≠ .NONE → q.requestLineParam = (fun _ => none) →
    ∃ q', q.parseRequestLine (m.name ++ 32 :: (url ++ 32 :: Request.version)) = .ok (true, q') ∧
      q'.requestLineParam .url_ip = some (host, 0) ∧
      q'.requestLineParam .url_port = some ([], port.toUInt32) ∧
      q'.requestLineParam .url_suffix = some (suffix, 0)) ∧
  ∀ info, parseRtspUrl info url = .ok (true, ⟨url, host, port, suffix⟩)

section ScanUrl
variable {host suffix u : Bytes} {cap : ℕ}

theorem UrlParts.host_token (h : UrlParts host suffix) (h0 : ∀ b ∈ host ++ suffix, b ≠ 0) :
    IsToken host :=
  ⟨h.host_ne, fun b hb => ⟨h.host_unspaced b hb, h0 b (List.mem_append_left _ hb)⟩⟩

theorem UrlParts.suffix_token (h : UrlParts host suffix) (h0 : ∀ b ∈ host ++ suffix, b ≠ 0) :
    IsToken suffix :=
  ⟨h.suffix_ne, fun b hb => ⟨h.suffix_unspaced b hb, h0 b (List.mem_append_right _ hb)⟩⟩

/-- With a port the first format reads all three parts. -/
theorem scanUrl_port (h : UrlParts host suffix) (h0 : ∀ b ∈ host ++ suffix, b ≠ 0)
    (hcap : 64 ≤ cap) (port : UInt16) :
    scanUrl cap (host ++ 58 :: (Numeral.decimal port.toNat ++ 47 :: suffix)) =
      .ok (some (host, port, suffix)) := by
  have hclean : Scanf.cString (host ++ 58 :: (Numeral.decimal port.toNat ++ 47 :: suffix)) =
      host ++ 58 :: (Numeral.decimal port.toNat ++ 47 :: suffix) := by
    apply Scanf.cString_eq
    intro b hb
    simp only [List.mem_append, List.mem_cons] at hb
    rcases hb with hb | rfl | hb | rfl | hb
    · exact h0 b (List.mem_append_left _ hb)
    · decide
    · exact (digits_token _ b hb).2
    · decide
    · exact h0 b (List.mem_append_right _ hb)
  have hcolon (s : Bytes) : ∀ b ∈ (58 :: s).head?, b = 58 := by
    intro b hb
    exact (Option.some.inj hb).symm
  have hslash (s : Bytes) : ∀ b ∈ (47 :: s).head?, Numeral.isDigit b = false := by
    intro b hb
    obtain rfl := Option.some.inj hb
    rfl
  have hport := port.toNat_lt
  have hmod : port.toNat%2^16 = port.toNat := Nat.mod_eq_of_lt hport
  have hlen := h.suffix_length
  have hscan : sscanf [.notIn 58 16, .lit 58, .uint 16, .lit 47, .str cap]
      (host ++ 58 :: (Numeral.decimal port.toNat ++ 47 :: suffix)) =
        .ok [.text host, .num port.toNat, .text suffix] := by
    rw [sscanf, hclean, Scanf.scan_notIn h.host_ne h.host_length h.host_plain.1 (hcolon _),
      Scanf.scan_lit, Scanf.scan_uint (by omega) (hslash _), Scanf.scan_lit,
      (h.suffix_token h0).scan_end (by omega), hmod]
    rfl
  simp only [scanUrl, hscan, bind, Except.bind, pure, Except.pure, UInt16.ofNat_toNat]

/-- The first colon of an address without a port is in its suffix. -/
theorem colon_behind_host (h : UrlParts host suffix) :
    (host ++ 47 :: suffix).takeWhile (· ≠ 58) = host ++ 47 :: suffix.takeWhile (· ≠ 58) ∧
      (host ++ 47 :: suffix).dropWhile (· ≠ 58) = suffix.dropWhile (· ≠ 58) := by
  have hall : ∀ b ∈ host, decide (b ≠ 58) = true := by
    intro b hb
    apply decide_eq_true
    rintro rfl
    exact h.host_plain.1 hb
  constructor
  · rw [List.takeWhile_append_of_pos hall]
    rfl
  · rw [List.dropWhile_append_of_pos hall]
    rfl

theorem behindPort_ne_nil_iff (h : UrlParts host suffix) :
    behindPort (host ++ 47 :: suffix) ≠ [] ↔ MistakenPort suffix := by
  obtain ⟨_,hdrop⟩ := colon_behind_host h
  have hhead : ¬(host ++ 47 :: suffix).head? = some 58 := by
    obtain ⟨b,rest,rfl⟩ := List.exists_cons_of_ne_nil h.host_ne
    intro hb
    rw [Option.some.inj hb] at h
    exact h.host_plain.1 List.mem_cons_self
  rw [behindPort, if_neg hhead, hdrop]
  unfold MistakenPort
  cases hnum : Scanf.strtoul (suffix.dropWhile (· ≠ 58)).tail with
  | none =>
    refine iff_of_false (fun hne => hne rfl) ?_
    rintro ⟨v,rest,hsome,_⟩
    cases hsome
  | some r =>
    obtain ⟨v,rest⟩ := r
    constructor
    · exact fun hne => ⟨v, rest, rfl, hne⟩
    · rintro ⟨v',rest',hsome,hne⟩
      obtain ⟨_,rfl⟩ := Prod.mk.inj (Option.some.inj hsome)
      exact hne

theorem UrlParts.unspaced (h : UrlParts host suffix) : Unspaced (host ++ 47 :: suffix) := by
  intro b hb
  rcases List.mem_append.mp hb with hb | hb
  · exact h.host_unspaced b hb
  · rcases List.mem_cons.mp hb with rfl | hb
    · decide
    · exact h.suffix_unspaced b hb

theorem plain_no_nul (h0 : ∀ b ∈ host ++ suffix, b ≠ 0) : ∀ b ∈ host ++ 47 :: suffix, b ≠ 0 := by
  intro b hb
  rcases List.mem_append.mp hb with hb | hb
  · exact h0 b (List.mem_append_left _ hb)
  · rcases List.mem_cons.mp hb with rfl | hb
    · decide
    · exact h0 b (List.mem_append_right _ hb)

/-- Without a port the second format reads both parts, if the first one stores its host inside the
array and finds no port. -/
theorem scanUrl_plain (h : UrlParts host suffix) (h0 : ∀ b ∈ host ++ suffix, b ≠ 0)
    (hcap : 64 ≤ cap) (hshort : host.length+1+(suffix.takeWhile (· ≠ 58)).length < 16)
    (hport : ¬MistakenPort suffix) :
    scanUrl cap (host ++ 47 :: suffix) = .ok (some (host, 554, suffix)) := by
  obtain ⟨htake,_⟩ := colon_behind_host h
  have hclean : Scanf.cString (host ++ 47 :: suffix) = host ++ 47 :: suffix :=
    Scanf.cString_eq (plain_no_nul h0)
  have hhost : ((host ++ 47 :: suffix).takeWhile (· ≠ 58)).length < 16 := by
    rw [htake, List.length_append, List.length_cons]
    omega
  have hnone : behindPort (host ++ 47 :: suffix) = [] := by
    by_contra hne
    exact hport ((behindPort_ne_nil_iff h).mp hne)
  obtain ⟨short,_,hlt,hscan⟩ := scan_hostPort h.unspaced hhost cap
  rw [if_pos hnone] at hscan
  have hslash (s : Bytes) : ∀ b ∈ (47 :: s).head?, b = 47 := by
    intro b hb
    exact (Option.some.inj hb).symm
  have hlen := h.suffix_length
  have hsecond : sscanf [.notIn 47 16, .lit 47, .str cap] (host ++ 47 :: suffix) =
      .ok [.text host, .text suffix] := by
    rw [sscanf, hclean, Scanf.scan_notIn h.host_ne h.host_length h.host_plain.2 (hslash _),
      Scanf.scan_lit, (h.suffix_token h0).scan_end (by omega)]
    rfl
  have hfirst : sscanf [.notIn 58 16, .lit 58, .uint 16, .lit 47, .str cap]
      (host ++ 47 :: suffix) = .ok short := by
    rw [sscanf, hclean, hscan]
  simp only [scanUrl, hfirst, hsecond, bind, Except.bind]
  split
  · contradiction
  · rfl

/-- What is read comes from in front of the first NUL. -/
theorem scanUrl_no_nul {ip suff : Bytes} {port : UInt16}
    (h : scanUrl cap u = .ok (some (ip, port, suff))) : ∀ b ∈ ip ++ suff, b ≠ 0 := by
  have htext {ds : List Scanf.Directive} {vals : List Scanf.Value} {t : Bytes} {b : UInt8}
      (hs : sscanf ds u = .ok vals) (ht : .text t ∈ vals) (hb : b ∈ t) : b ≠ 0 := by
    unfold sscanf at hs
    cases hscan : Scanf.scan ds (Scanf.cString u) with
    | none =>
      rw [hscan] at hs
      cases hs
    | some vals' =>
      rw [hscan] at hs
      rw [← Except.ok.inj hs] at ht
      have hmem := Scanf.mem_of_scan_text hscan ht hb
      simpa using List.mem_takeWhile_imp hmem
  unfold scanUrl at h
  cases hfirst : sscanf [.notIn 58 16, .lit 58, .uint 16, .lit 47, .str cap] u with
  | error e =>
    rw [hfirst] at h
    cases h
  | ok vals =>
    rw [hfirst] at h
    simp only [bind, Except.bind] at h
    split at h
    · obtain ⟨rfl,hrest⟩ := Prod.mk.inj (Option.some.inj (Except.ok.inj h))
      obtain ⟨_,rfl⟩ := Prod.mk.inj hrest
      intro b hb
      rcases List.mem_append.mp hb with hb | hb
      · exact htext hfirst (by simp) hb
      · exact htext hfirst (by simp) hb
    · cases hsecond : sscanf [.notIn 47 16, .lit 47, .str cap] u with
      | error e =>
        rw [hsecond] at h
        cases h
      | ok vals2 =>
        rw [hsecond] at h
        dsimp only at h
        split at h
        · obtain ⟨rfl,hrest⟩ := Prod.mk.inj (Option.some.inj (Except.ok.inj h))
          obtain ⟨_,rfl⟩ := Prod.mk.inj hrest
          intro b hb
          rcases List.mem_append.mp hb with hb | hb
          · exact htext hsecond (by simp) hb
          · exact htext hsecond (by simp) hb
        · cases Except.ok.inj h

/-- An address without a port that is read as itself. -/
theorem scanUrl_plain_inv (h : UrlParts host suffix) {port : UInt16}
    (hread : scanUrl cap (host ++ 47 :: suffix) = .ok (some (host, port, suffix))) :
    (∀ b ∈ host ++ suffix, b ≠ 0) ∧ host.length+1+(suffix.takeWhile (· ≠ 58)).length < 16 ∧
      ¬MistakenPort suffix := by
  have h0 := scanUrl_no_nul hread
  obtain ⟨htake,_⟩ := colon_behind_host h
  have hclean : Scanf.cString (host ++ 47 :: suffix) = host ++ 47 :: suffix :=
    Scanf.cString_eq (plain_no_nul h0)
  have hne : ¬(host ++ 47 :: suffix).takeWhile (· ≠ 58) = [] := by
    rw [htake]
    simp
  by_cases hhost : ((host ++ 47 :: suffix).takeWhile (· ≠ 58)).length < 16
  · refine ⟨h0, ?_, ?_⟩
    · rw [htake, List.length_append, List.length_cons] at hhost
      omega
    · intro hmistaken
      -- the first format succeeds, with the slash in the host
      obtain ⟨short,n,_,hscan⟩ := scan_hostPort h.unspaced hhost cap
      rw [if_neg ((behindPort_ne_nil_iff h).mpr hmistaken)] at hscan
      by_cases hlen : (behindPort (host ++ 47 :: suffix)).length < cap
      · rw [if_pos hlen] at hscan
        have hfirst : sscanf [.notIn 58 16, .lit 58, .uint 16, .lit 47, .str cap]
            (host ++ 47 :: suffix) = .ok [.text ((host ++ 47 :: suffix).takeWhile (· ≠ 58)), .num n,
              .text (behindPort (host ++ 47 :: suffix))] := by
          rw [sscanf, hclean, hscan]
        simp only [scanUrl, hfirst, bind, Except.bind, pure, Except.pure] at hread
        have hip := (Prod.mk.inj (Option.some.inj (Except.ok.inj hread))).1
        rw [htake] at hip
        have hcount := congrArg List.length hip
        rw [List.length_append, List.length_cons] at hcount
        omega
      · rw [if_neg hlen] at hscan
        have hfirst : sscanf [.notIn 58 16, .lit 58, .uint 16, .lit 47, .str cap]
            (host ++ 47 :: suffix) = .error .arrayOverflow := by
          rw [sscanf, hclean, hscan]
        simp only [scanUrl, hfirst, bind, Except.bind] at hread
        cases hread
  · have hscan : sscanf [.notIn 58 16, .lit 58, .uint 16, .lit 47, .str cap]
        (host ++ 47 :: suffix) = .error .arrayOverflow := by
      rw [sscanf, hclean, Scanf.scan_notIn_eq]
      dsimp only
      rw [if_neg hne, if_neg hhost]
    simp only [scanUrl, hscan, bind, Except.bind] at hread
    cases hread

theorem readAs_of_scanUrl {port : UInt16} (hu : Unspaced u) (h0 : ∀ b ∈ u, b ≠ 0)
    (hlen : u.length < 121) (hread : ∀ cap, 64 ≤ cap → scanUrl cap u = .ok (some (host, port, suffix))) :
    ReadAs (ascii "rtsp://" ++ u) host port suffix := by
  have hseven : (ascii "rtsp://").length = 7 := by decide
  have hdrop : (ascii "rtsp://" ++ u).drop 7 = u := by rw [← hseven, List.drop_left]
  have htake : (ascii "rtsp://" ++ u).take 7 = ascii "rtsp://" := by rw [← hseven, List.take_left]
  have hall : (ascii "rtsp://" ++ u).length = 7+u.length := by rw [List.length_append, hseven]
  have htoken : IsToken (ascii "rtsp://" ++ u) := by
    refine ⟨by simp [ascii], ?_⟩
    intro b hb
    rcases List.mem_append.mp hb with hb | hb
    · exact scheme_token.2 b hb
    · exact ⟨hu b hb, h0 b hb⟩
  constructor
  · intro q m hm hq
    have hparse : parseUrl ((ascii "rtsp://" ++ u).drop 7) = .ok (some (host, port, suffix)) := by
      rw [hdrop, parseUrl_eq]
      exact hread 64 (by decide)
    refine ⟨_, parseRequestLine_tokens hm htoken (by omega) htake hparse q, ?_⟩
    dsimp only
    rw [hq]
    exact ⟨rfl, rfl, rfl⟩
  · intro info
    rw [parseRtspUrl, if_neg (by omega), hdrop, hread 128 (by decide)]
    rfl

theorem scanUrl_of_readAs {port : UInt16} (h : ReadAs (ascii "rtsp://" ++ u) host port suffix) :
    scanUrl 128 u = .ok (some (host, port, suffix)) := by
  have hseven : (ascii "rtsp://").length = 7 := by decide
  have hread := h.2 ⟨[], [], 0, []⟩
  rw [parseRtspUrl, if_neg (by rw [List.length_append]; omega), ← hseven, List.drop_left] at hread
  cases hscan : scanUrl 128 u with
  | error e =>
    rw [hscan] at hread
    cases hread
  | ok x =>
    rw [hscan] at hread
    cases x with
    | none => cases Except.ok.inj hread
    | some x =>
      obtain ⟨a,b,c⟩ := x
      have hinfo := RtspUrlInfo.mk.inj (Prod.mk.inj (Except.ok.inj hread)).2
      rw [hinfo.2.1, hinfo.2.2.1, hinfo.2.2.2]

theorem readAs_portUrl_iff (h : UrlParts host suffix) (port : UInt16) :
    ReadAs (portUrl host port suffix) host port suffix ↔ ∀ b ∈ host ++ suffix, b ≠ 0 := by
  constructor
  · exact fun hread => scanUrl_no_nul (scanUrl_of_readAs hread)
  · intro h0
    have hdigits : (Numeral.decimal port.toNat).length ≤ 5 := by
      have hport := port.toNat_lt
      exact Numeral.length_decimal_le (by decide) (by omega)
    have hbytes : ∀ b ∈ host ++ 58 :: (Numeral.decimal port.toNat ++ 47 :: suffix),
        Scanf.isSpace b = false ∧ b ≠ 0 := by
      intro b hb
      simp only [List.mem_append, List.mem_cons] at hb
      rcases hb with hb | rfl | hb | rfl | hb
      · exact (h.host_token h0).2 b hb
      · decide
      · exact digits_token _ b hb
      · decide
      · exact (h.suffix_token h0).2 b hb
    have hhost := h.host_length
    have hsuffix := h.suffix_length
    apply readAs_of_scanUrl
    · exact fun b hb => (hbytes b hb).1
    · exact fun b hb => (hbytes b hb).2
    · simp only [List.length_append, List.length_cons]
      omega
    · exact fun cap hcap => scanUrl_port h h0 hcap port

theorem readAs_plainUrl_iff (h : UrlParts host suffix) :
    ReadAs (plainUrl host suffix) host 554 suffix ↔ (∀ b ∈ host ++ suffix, b ≠ 0) ∧
      host.length+1+(suffix.takeWhile (· ≠ 58)).length < 16 ∧ ¬MistakenPort suffix := by
  constructor
  · exact fun hread => scanUrl_plain_inv h (scanUrl_of_readAs hread)
  · rintro ⟨h0,hshort,hport⟩
    have hhost := h.host_length
    have hsuffix := h.suffix_length
    apply readAs_of_scanUrl
    · exact h.unspaced
    · exact plain_no_nul h0
    · simp only [List.length_append, List.length_cons]
      omega
    · exact fun cap hcap => scanUrl_plain h h0 hcap hshort hport

end ScanUrl

/-- Both parsers read a URL with a port as it is written. A URL without one they read as it is written
exactly if fewer than 16 bytes stand in front of the first colon of `host/suffix` and no number and path
follow that colon. -/
theorem url_read_iff (host suffix : Bytes) (port : UInt16) (h : UrlParts host suffix) :
    (ReadAs (portUrl host port suffix) host port suffix ↔ ∀ b ∈ host ++ suffix, b ≠ 0) ∧
    (ReadAs (plainUrl host suffix) host 554 suffix ↔ (∀ b ∈ host ++ suffix, b ≠ 0) ∧
      host.length+1+(suffix.takeWhile (· ≠ 58)).length < 16 ∧ ¬MistakenPort suffix) :=
  ⟨readAs_portUrl_iff h port, readAs_plainUrl_iff h⟩

theorem camLive_parts : UrlParts (ascii "cam") (ascii "live:a") := by
  have hhost : ∀ b ∈ ascii "cam", Scanf.isSpace b = false := by decide +kernel
  have hsuffix : ∀ b ∈ ascii "live:a", Scanf.isSpace b = false := by decide +kernel
  exact ⟨by decide, by decide, by decide, hhost, by decide, by decide, hsuffix⟩

theorem camLive_no_nul : ∀ b ∈ ascii "cam" ++ ascii "live:a", b ≠ 0 := by decide +kernel

/-- A short host, and a colon that no number follows. -/
theorem url_read_camLive : ReadAs (portUrl (ascii "cam") 8554 (ascii "live:a")) (ascii "cam") 8554
      (ascii "live:a") ∧
    ReadAs (plainUrl (ascii "cam") (ascii "live:a")) (ascii "cam") 554 (ascii "live:a") := by
  obtain ⟨hport,hplain⟩ := url_read_iff (ascii "cam") (ascii "live:a") 8554 camLive_parts
  refine ⟨hport.mpr camLive_no_nul, hplain.mpr ⟨camLive_no_nul, by decide, ?_⟩⟩
  rintro ⟨v,rest,hnum,_⟩
  have hnone : Scanf.strtoul ((ascii "live:a").dropWhile (· ≠ 58)).tail = none := by decide
  rw [hnone] at hnum
  cases hnum

/-- An ordinary address: `%[^:]` reads 18 bytes. -/
theorem url_read_fails : ¬ReadAs (plainUrl (ascii "192.168.1.100") (ascii "live"))
    (ascii "192.168.1.100") 554 (ascii "live") := by
  intro hread
  have hscan := scanUrl_of_readAs hread
  have herror : scanUrl 128 (ascii "192.168.1.100" ++ 47 :: ascii "live") = .error .arrayOverflow := by
    decide +kernel
  rw [herror] at hscan
  cases hscan

end IdealServer

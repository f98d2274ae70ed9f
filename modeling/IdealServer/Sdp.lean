import IdealServer.ResponseText
import IdealServer.TrackAddressing

/-! The description of a session as lines of text. `getSdpMessage` prints them into an array of 1024
bytes the first time, and hands out the same text from then on. -/
namespace IdealServer
open Lines

namespace MediaSession

/-- The lines of a channel: media, attribute and control. -/
def sourceLines (s : MediaSession) (chn : MediaChannelId) : List Bytes :=
  match s.mediaSources chn with
  | none => []
  | some source =>
    [source.getMediaDescription 0, source.getAttribute, ascii "a=control:" ++ trackName chn]

/-- The lines in front of the name. -/
def headLines (now : ℤ) (ip : Bytes) : List Bytes :=
  [ascii "v=0", ascii "o=- 9" ++ printLD now ++ ascii " 1 IN IP4 " ++ ip, ascii "t= 0 0",
    ascii "a= control:*"]

/-- The line of the name, which may itself contain line breaks. -/
def nameLines (sessionName : Bytes) : List Bytes :=
  if sessionName = [] then [] else [ascii "s=" ++ Scanf.cString sessionName]

def sdpLines (s : MediaSession) (now : ℤ) (ip sessionName : Bytes) : List Bytes :=
  headLines now ip ++ nameLines sessionName ++ mediaChannels.flatMap s.sourceLines

/-- The channels that have a source, in their order. -/
def channels (s : MediaSession) : List MediaChannelId :=
  mediaChannels.filter (fun chn => (s.mediaSources chn).isSome)

/-- The lines of a channel that has a source. -/
def channelLines (chn : MediaChannelId) : List Bytes :=
  [ascii "m=video 0 RTP/AVP 96", ascii "a=rtpmap:96 H264/90000", ascii "a=control:" ++ trackName chn]

/-- The bytes that a description needs: 44 for the session besides the numbers, 64 for a channel. -/
def printedLength (s : MediaSession) (now : ℤ) (ip sessionName : Bytes) : ℕ :=
  44+(printLD now).length+ip.length+
    (if sessionName = [] then 0 else (Scanf.cString sessionName).length+4)+64*s.channels.length

section Text
variable (s : MediaSession) (now : ℤ) (ip sessionName : Bytes)

/-- All sources are described in the same way. -/
theorem sourceLines_eq (chn : MediaChannelId) : s.sourceLines chn =
    if (s.mediaSources chn).isSome then channelLines chn else [] := by
  unfold sourceLines
  cases s.mediaSources chn with
  | none => rfl
  | some source =>
    have hport : source.getMediaDescription 0 = ascii "m=video 0 RTP/AVP 96" := by
      show ascii "m=video " ++ Numeral.decimal 0 ++ ascii " RTP/AVP 96" = _
      decide
    dsimp only
    rw [hport]
    rfl

/-- The lines in the middle are those of the channels that have a source. -/
theorem sourceLines_channels :
    mediaChannels.flatMap s.sourceLines = s.channels.flatMap channelLines := by
  unfold channels
  generalize mediaChannels = chns
  induction chns with
  | nil => rfl
  | cons chn chns ih =>
    rw [List.flatMap_cons, sourceLines_eq, ih, List.filter_cons]
    by_cases hsource : (s.mediaSources chn).isSome = true
    · rw [if_pos hsource, if_pos hsource, List.flatMap_cons]
    · rw [if_neg hsource, if_neg hsource, List.nil_append]

/-- A round of the loop prints the lines of its channel. -/
theorem describeSource_text (chn : MediaChannelId) (text : Bytes) :
    s.describeSource chn chn.number (snprintf 1024 [] text) =
      snprintf 1024 [] (text ++ unlines kCRLF (s.sourceLines chn)) := by
  have hcrlf : ascii "\r\n" = kCRLF := crlf_literal
  have hcontrol : ascii "a=control:track" = ascii "a=control:" ++ ascii "track" := by decide
  unfold describeSource sourceLines
  cases s.mediaSources chn with
  | none => simp
  | some source =>
    dsimp only
    rw [snprintf_snprintf, snprintf_snprintf, snprintf_snprintf, hcrlf, hcontrol]
    simp [trackName]

theorem getSdpMessage_text (h : s.sdp = []) : (s.getSdpMessage now ip sessionName).1 =
    snprintf 1024 [] (unlines kCRLF (s.sdpLines now ip sessionName)) := by
  have hhead : ascii "v=0\r\no=- 9" = ascii "v=0" ++ (kCRLF ++ ascii "o=- 9") := by decide
  have htail : ascii "\r\nt= 0 0\r\na= control:*\r\n" =
      kCRLF ++ (ascii "t= 0 0" ++ (kCRLF ++ (ascii "a= control:*" ++ kCRLF))) := by decide
  have hsession : (if sessionName = [] then snprintf 1024 [] (ascii "v=0\r\no=- 9" ++ printLD now ++
        ascii " 1 IN IP4 " ++ ip ++ ascii "\r\nt= 0 0\r\na= control:*\r\n")
      else snprintf 1024 (snprintf 1024 [] (ascii "v=0\r\no=- 9" ++ printLD now ++
        ascii " 1 IN IP4 " ++ ip ++ ascii "\r\nt= 0 0\r\na= control:*\r\n"))
        (ascii "s=" ++ Scanf.cString sessionName ++ ascii "\r\n")) =
      snprintf 1024 [] (unlines kCRLF (headLines now ip ++ nameLines sessionName)) := by
    unfold nameLines
    split
    · rw [hhead, htail]
      simp [headLines]
    · rw [snprintf_snprintf, hhead, htail, crlf_literal]
      simp [headLines]
  have hnone : ¬s.sdp ≠ [] := fun hsdp => hsdp h
  rw [getSdpMessage, if_neg hnone]
  dsimp only
  rw [hsession, show ascii "0" = MediaChannelId.channel_0.number from rfl, describeSource_text,
    show ascii "1" = MediaChannelId.channel_1.number from rfl, describeSource_text]
  simp [sdpLines, mediaChannels]

theorem length_channelLines (chns : List MediaChannelId) :
    (unlines kCRLF (chns.flatMap channelLines)).length = 64*chns.length := by
  have hone (chn : MediaChannelId) : (unlines kCRLF (channelLines chn)).length = 64 := by
    cases chn <;> decide
  induction chns with
  | nil => rfl
  | cons chn chns ih =>
    rw [List.flatMap_cons, unlines_append, List.length_append, hone, ih, List.length_cons]
    omega

theorem length_sdpLines :
    (unlines kCRLF (s.sdpLines now ip sessionName)).length = s.printedLength now ip sessionName := by
  have hcrlf : kCRLF.length = 2 := rfl
  have hhead : (unlines kCRLF (headLines now ip)).length = 44+(printLD now).length+ip.length := by
    have hversion : (ascii "v=0").length = 3 := by simp [ascii]
    have horigin : (ascii "o=- 9").length = 5 := by simp [ascii]
    have hnet : (ascii " 1 IN IP4 ").length = 10 := by simp [ascii]
    have htime : (ascii "t= 0 0").length = 6 := by simp [ascii]
    have hcontrol : (ascii "a= control:*").length = 12 := by simp [ascii]
    simp [headLines, hversion, horigin, hnet, htime, hcontrol, hcrlf]
    omega
  have hname : (unlines kCRLF (nameLines sessionName)).length =
      if sessionName = [] then 0 else (Scanf.cString sessionName).length+4 := by
    unfold nameLines
    split
    · rfl
    · have hs : (ascii "s=").length = 2 := by simp [ascii]
      simp [hs, hcrlf]
      omega
  rw [sdpLines, unlines_append, unlines_append, List.length_append, List.length_append, hhead, hname,
    sourceLines_channels, length_channelLines]
  rfl

/-- What `getSdpMessage` keeps, and what it returns. -/
theorem getSdpMessage_cached (h : s.sdp ≠ []) : s.getSdpMessage now ip sessionName = (s.sdp, s) := by
  rw [getSdpMessage, if_pos h]

theorem getSdpMessage_sdp :
    (s.getSdpMessage now ip sessionName).2.sdp = (s.getSdpMessage now ip sessionName).1 := by
  unfold getSdpMessage
  split <;> rfl

end Text

end MediaSession

end IdealServer

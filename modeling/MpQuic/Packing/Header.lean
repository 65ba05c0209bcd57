import MpQuic.Packing.Size
import MpQuic.Wire.HeaderParse

namespace MpQuic.Packing

open MpQuic.Library MpQuic.Protocol MpQuic.Wire

-- What the packer is set up with: a connection ID, one of the versions that have a tag, a path ID
-- of one byte, a nonce for the packets that need one, and no truncation on the client.
structure HeaderInput (p : Packer) (crypto : CryptoSetup) (encLevel : EncryptionLevel)
    (pth : Path) : Prop where
  id_pos : 0 < p.connectionID
  id_lt : p.connectionID < 2 ^ 64
  version_nonneg : 0 ≤ p.version
  version_lt : p.version < 1000
  path_lt : pth.pathID < 2 ^ 8
  nonce : p.perspective = .server → encLevel = .secure → crypto.diversificationNonce.length = 32
  untruncated : p.perspective = .client →
    (p.getPublicHeader crypto encLevel pth).truncateConnectionID = false

theorem HeaderInput.regular {p : Packer} {crypto : CryptoSetup} {encLevel : EncryptionLevel}
    {pth : Path} (h : HeaderInput p crypto encLevel pth) :
    (p.getPublicHeader crypto encLevel pth).Regular p.version p.perspective where
  noReset := rfl
  length := by
    show getPacketNumberLengthForPublicHeader _ _ ∈ _
    rcases getPacketNumberLengthForPublicHeader_cases pth.packetNumberGenerator.peek
      pth.leastUnacked with hl | hl | hl <;> rw [hl] <;> simp
  versionSent := by
    intro hflag
    have hclient : p.perspective = .client ∧ encLevel ≠ .forwardSecure := of_decide_eq_true hflag
    exact ⟨hclient.1, if_pos hclient⟩
  versionKept := by
    intro hflag
    exact if_neg (of_decide_eq_false hflag)
  nonce := by
    intro hsome
    have hsecure : p.perspective = .server ∧ encLevel = .secure := by
      by_contra hnot
      exact hsome (if_neg hnot)
    refine ⟨hsecure.1, ?_⟩
    show (if _ then _ else _ : List UInt8).length = 32
    rw [if_pos hsecure]
    exact h.nonce hsecure.1 hsecure.2
  path := by
    show (if _ then _ else _) < 2 ^ 8
    split
    · exact h.path_lt
    · norm_num
  noPath := by
    intro hflag
    have hmultipath : (crypto.handshakeComplete && decide (p.version ≥ versionMP)) = false := hflag
    exact if_neg (by rw [hmultipath]; exact Bool.false_ne_true)
  id_pos := h.id_pos
  id_lt := h.id_lt
  truncated := by
    intro htruncate
    cases hp : p.perspective with
    | server => rfl
    | client =>
      rw [h.untruncated hp] at htruncate
      cases htruncate

-- A header that was written is read back, up to the start of the payload, and `GetLength` is the
-- number of its bytes. The connection ID is missing if it was left out.
theorem headers_survive_wire (p : Packer) (crypto : CryptoSetup) (encLevel : EncryptionLevel)
    (pth : Path) (h : HeaderInput p crypto encLevel pth) :
    let header := p.getPublicHeader crypto encLevel pth
    ∃ bytes, header.write p.version p.perspective = .ok bytes ∧
      Parses (parsePublicHeader p.perspective p.version) bytes
        { header with
          connectionID := if header.truncateConnectionID then 0 else header.connectionID
          packetNumber := header.packetNumber % 2 ^ (8 * header.packetNumberLen)
          supportedVersions := [] } ∧
      header.getLength p.perspective = .ok bytes.length := by
  have hr := h.regular
  obtain ⟨bytes, hwrite, hparses⟩ := hr.parses_write h.version_nonneg h.version_lt
  exact ⟨bytes, hwrite, hparses, hr.getLength_eq hwrite⟩

def freshPacker (perspective : Perspective) (truncateConnectionID : Bool) : Packer :=
  ⟨5, perspective, versionMP, truncateConnectionID, ⟨[], []⟩, [], fun _ => none, fun _ => none, []⟩

def startedSetup : CryptoSetup :=
  ⟨.secure, .secure, List.replicate 32 7, false, by simp⟩

def freshPath : Path :=
  ⟨0, ⟨500, 70000, 80000⟩, 69990⟩

theorem headers_survive_wire_example :
    let header := (freshPacker .server false).getPublicHeader startedSetup .secure freshPath
    header.packetNumberLen = 2 ∧ header.diversificationNonce.length = 32 ∧
      ∃ bytes, header.write versionMP .server = .ok bytes ∧
        Parses (parsePublicHeader .server versionMP) bytes
          { header with
            connectionID := if header.truncateConnectionID then 0 else header.connectionID
            packetNumber := header.packetNumber % 2 ^ (8 * header.packetNumberLen)
            supportedVersions := [] } ∧
        header.getLength .server = .ok bytes.length := by
  have h : HeaderInput (freshPacker .server false) startedSetup .secure freshPath := by
    constructor <;> simp [freshPacker, startedSetup, freshPath, versionMP]
  exact ⟨by decide +kernel, by decide +kernel, headers_survive_wire _ _ _ _ h⟩

-- A server whose client asked for truncation leaves the connection ID out, and the client reads
-- zero.
theorem truncated_header_has_no_id :
    let header := (freshPacker .server true).getPublicHeader startedSetup .secure freshPath
    HeaderInput (freshPacker .server true) startedSetup .secure freshPath ∧
      header.connectionID = 5 ∧
      ∃ bytes received rest, header.write versionMP .server = .ok bytes ∧
        (parsePublicHeader .server versionMP).run bytes = .ok (received, rest) ∧
        received.connectionID = 0 := by
  have h : HeaderInput (freshPacker .server true) startedSetup .secure freshPath := by
    constructor <;> simp [freshPacker, startedSetup, freshPath, versionMP]
  obtain ⟨bytes, hwrite, hparses⟩ := h.regular.parses_write h.version_nonneg h.version_lt
  have hread := hparses []
  rw [List.append_nil] at hread
  exact ⟨h, rfl, bytes, _, [], hwrite, hread, rfl⟩

end MpQuic.Packing

import MpQuic.QAccess.Document

namespace MpQuic.QAccess

open MpQuic.Library

def goCoefficients (file : CoeffsFile) (pathID : Nat) : CoeffEntry :=
  (resolveCoefficientsForPath (loadQAccessCoeffsDocument file).1 pathID).entry

def workerCoefficients (file : CoeffsFile) (pathID : Int) : Except PyError CoeffEntry :=
  ((loadCoeffsDoc file).bind fun doc => resolvePathCoeffs doc pathID).map Prod.fst

namespace JsonDocument

def entryAt (doc : JsonDocument) (pathID : Nat) : Option EntryMember :=
  match doc.paths with
  | some (.table entries) => entries.lookup (formatPathID pathID)
  | _ => none

end JsonDocument

section Go

theorem validEntry_defaultEntry : defaultEntry.valid = true := by
  decide +kernel

theorem lookup_cleanPaths (paths : AList fun _ : String => CoeffEntry) (key : String) :
    (cleanPaths paths).lookup key = (paths.lookup key).filter CoeffEntry.valid := by
  unfold cleanPaths
  rw [lookup_filterMapValues]
  cases paths.lookup key <;> rfl

theorem resolve_versionOne {doc : CoeffsDocument} (hversion : doc.version = qaccessCoeffsVersion)
    (pathID : Nat) :
    (resolveCoefficientsForPath doc pathID).entry =
      ((doc.paths.lookup (formatPathID pathID)).filter CoeffEntry.valid).getD
        (if doc.default.valid then doc.default else defaultEntry) := by
  unfold resolveCoefficientsForPath normalizeCoeffsDocument fallbackCoefficients
  rw [if_pos hversion]
  dsimp only
  rw [lookup_cleanPaths]
  have hdefault : (if doc.default.valid then doc.default
      else defaultQAccessCoeffsDocument.default).valid = true := by
    split
    · assumption
    · exact validEntry_defaultEntry
  rw [if_pos hdefault]
  cases hfound : (doc.paths.lookup (formatPathID pathID)).filter CoeffEntry.valid with
  | none => rfl
  | some e =>
    have hvalid : e.valid = true := (Option.filter_eq_some_iff.mp hfound).2
    dsimp only
    rw [if_pos hvalid]
    rfl

theorem lookup_decodePaths (doc : JsonDocument) (pathID : Nat) :
    (decodePaths doc.paths).lookup (formatPathID pathID) =
      (doc.entryAt pathID).map fun member => decodeEntry ⟨0, 0, 0⟩ (some member) := by
  unfold JsonDocument.entryAt
  cases doc.paths with
  | none => rfl
  | some member =>
    cases member with
    | value v => rfl
    | table entries =>
      dsimp only [decodePaths]
      rw [lookup_filterMapValues, Option.map_eq_bind]
      rfl

theorem normalizeCoeffsDocument_idem (doc : CoeffsDocument) :
    normalizeCoeffsDocument (normalizeCoeffsDocument doc) = normalizeCoeffsDocument doc := by
  by_cases hversion : doc.version = qaccessCoeffsVersion
  · have hclean : cleanPaths (cleanPaths doc.paths) = cleanPaths doc.paths := by
      refine filterMapValues_eq_self fun entry hmem => ?_
      obtain ⟨e, he⟩ := mem_entries_filterMapValues hmem
      split at he <;> cases he
      rw [if_pos (by assumption)]
    have hnormal : normalizeCoeffsDocument doc = { doc with
        default := if doc.default.valid then doc.default else defaultQAccessCoeffsDocument.default
        paths := cleanPaths doc.paths } := if_pos hversion
    rw [hnormal]
    unfold normalizeCoeffsDocument
    rw [if_pos hversion]
    dsimp only
    rw [hclean]
    by_cases hvalid : doc.default.valid = true
    · simp [hvalid]
    · have hbuiltin : defaultQAccessCoeffsDocument.default.valid = true := validEntry_defaultEntry
      simp [hvalid, hbuiltin]
  · by_cases hflat : validCoeffEntry doc.alpha doc.beta doc.gamma = true
    · have hnormal : normalizeCoeffsDocument doc = { doc with
          version := qaccessCoeffsVersion
          default := ⟨doc.alpha, doc.beta, doc.gamma⟩
          paths := ∅ } := by
        unfold normalizeCoeffsDocument
        rw [if_neg hversion, if_pos hflat]
      rw [hnormal]
      unfold normalizeCoeffsDocument
      rw [if_pos rfl]
      dsimp only
      rw [if_pos (show CoeffEntry.valid ⟨doc.alpha, doc.beta, doc.gamma⟩ = true from hflat)]
      rfl
    · have hnormal : normalizeCoeffsDocument doc = doc := by
        unfold normalizeCoeffsDocument
        rw [if_neg hversion, if_neg hflat]
      rw [hnormal, hnormal]

theorem resolve_normalize (doc : CoeffsDocument) (pathID : Nat) :
    resolveCoefficientsForPath (normalizeCoeffsDocument doc) pathID =
      resolveCoefficientsForPath doc pathID := by
  unfold resolveCoefficientsForPath
  rw [normalizeCoeffsDocument_idem]

theorem resolve_load (doc : JsonDocument) (pathID : Nat) :
    resolveCoefficientsForPath (loadQAccessCoeffsDocument (.json doc)).1 pathID =
      resolveCoefficientsForPath (unmarshal defaultQAccessCoeffsDocument doc) pathID := by
  unfold loadQAccessCoeffsDocument
  dsimp only
  split
  · exact resolve_normalize _ pathID
  · rfl

end Go

section Python

structure PyDocument.Normal (doc : PyDocument) : Prop where
  version : isVersionOne doc.version = true
  default : (acceptsDefault doc.default).isSome = true
  paths : ∀ entry ∈ doc.paths.entries, entry.2.valid = true

variable {e : CoeffEntry} {doc : JsonDocument}

theorem acceptedEntry_raw (hvalid : e.valid = true) :
    acceptedEntry e.raw.alpha e.raw.beta e.raw.gamma = some e :=
  if_pos hvalid

theorem valid_of_acceptedEntry {alpha beta gamma : Option Value}
    (haccepted : acceptedEntry alpha beta gamma = some e) : e.valid = true := by
  unfold acceptedEntry at haccepted
  split at haccepted
  · split at haccepted
    · cases haccepted
      assumption
    · cases haccepted
  · cases haccepted

theorem valid_of_acceptedMember {member : EntryMember}
    (haccepted : acceptedMember member = some e) : e.valid = true := by
  cases member with
  | entry raw => exact valid_of_acceptedEntry haccepted
  | value v => cases haccepted

theorem acceptsDefault_raw (hvalid : e.valid = true) : acceptsDefault e.raw = some e :=
  acceptedEntry_raw hvalid

theorem normal_defaultDoc : defaultDoc.Normal where
  version := rfl
  default := by rw [defaultDoc, acceptsDefault_raw validEntry_defaultEntry]; rfl
  paths := by simp [defaultDoc]

theorem normal_of_normalizeCoeffsDoc {normal : PyDocument}
    (hnormal : normalizeCoeffsDoc doc = .ok normal) : normal.Normal := by
  unfold normalizeCoeffsDoc at hnormal
  split at hnormal
  · rename_i hversion
    cases hdefault : defaultOf doc.default with
    | error err => simp [hdefault, bind, Except.bind] at hnormal
    | ok e =>
      cases hpaths : pathsOf doc.paths with
      | error err => simp [hdefault, hpaths, bind, Except.bind] at hnormal
      | ok entries =>
        simp only [hdefault, hpaths, bind, Except.bind, pure, Except.pure] at hnormal
        cases hnormal
        refine ⟨hversion, ?_, fun entry hmem => ?_⟩
        · dsimp only
          split
          · assumption
          · rw [acceptsDefault_raw validEntry_defaultEntry]
            rfl
        · obtain ⟨member, hmember⟩ := mem_entries_filterMapValues hmem
          exact valid_of_acceptedMember hmember
  · split at hnormal
    · rename_i e he
      cases hnormal
      refine ⟨rfl, ?_, by simp [defaultDoc]⟩
      rw [acceptsDefault_raw (valid_of_acceptedEntry he)]
      rfl
    · cases hnormal
      exact normal_defaultDoc

theorem PyDocument.Normal.normalize {doc : PyDocument} (hnormal : doc.Normal) :
    normalizeCoeffsDoc doc.json = .ok doc := by
  have hversion : isVersionOne doc.json.version = true := hnormal.version
  unfold normalizeCoeffsDoc
  rw [if_pos hversion]
  have hpaths : filterMapValues acceptedMember
      (filterMapValues (fun e => some (EntryMember.entry e.raw)) doc.paths) = doc.paths := by
    rw [filterMapValues_filterMapValues]
    exact filterMapValues_eq_self fun entry hmem => acceptedEntry_raw (hnormal.paths entry hmem)
  simp only [PyDocument.json, defaultOf, pathsOf, bind, Except.bind, pure, Except.pure,
    hnormal.default, if_pos, hpaths]

theorem loadCoeffsDoc_json (doc : JsonDocument) :
    loadCoeffsDoc (.json doc) = normalizeCoeffsDoc doc := rfl

theorem resolvePathCoeffs_normal {doc : PyDocument} (hnormal : doc.Normal) (pathID : Int) :
    resolvePathCoeffs doc pathID =
      match doc.paths.lookup (Int.repr pathID) with
      | some e => .ok (e, "per_path")
      | none => resolveDefault doc.default := by
  unfold resolvePathCoeffs
  rw [hnormal.normalize]
  dsimp only [bind, Except.bind]
  cases hfound : doc.paths.lookup (Int.repr pathID) with
  | none => rfl
  | some e =>
    have hvalid : e.valid = true := hnormal.paths _ (AList.mem_lookup_iff.mp hfound)
    dsimp only
    rw [if_pos hvalid]
    rfl

end Python

def plainDocument : JsonDocument where
  version := some (.integer 1)
  default := some (.entry ⟨some (.decimal 0.6), some (.decimal 0.2), some (.decimal 0.1)⟩)
  paths := some (.table ((∅ : AList fun _ : String => EntryMember).insert "1"
    (.entry ⟨some (.decimal 0.7), some (.decimal 0.3), some (.decimal 0.2)⟩)))
  alpha := none
  beta := none
  gamma := none
  source := none
  metric := none

end MpQuic.QAccess

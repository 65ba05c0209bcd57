import MpQuic.QAccess.Loaders

namespace MpQuic.QAccess

open MpQuic.Library

-- A JSON document as it is written: every object is the list of its members, in their order and
-- with whatever keys. What is deeper than the entries of paths only counts as empty or not.
inductive TextEntry where
  | object (members : List (String × Value))
  | value (v : Value)
  deriving DecidableEq

inductive TextMember where
  | object (members : List (String × TextEntry))
  | value (v : Value)
  deriving DecidableEq

abbrev JsonText := List (String × TextMember)

def TextEntry.plain : TextEntry → Value
  | .object members => .compound members.isEmpty
  | .value v => v

namespace TextMember

def plain : TextMember → Value
  | .object members => .compound members.isEmpty
  | .value v => v

def entry : TextMember → TextEntry
  | .object members => .object (members.map fun member => (member.1, member.2.plain))
  | .value v => .value v

end TextMember

section Python

-- In a dictionary the last of several members with one key is left.
def lastOf {α : Type} (members : List (String × α)) (key : String) : Option α :=
  members.reverse.lookup key

def TextEntry.loads : TextEntry → EntryMember
  | .object members =>
    .entry ⟨lastOf members "alpha", lastOf members "beta", lastOf members "gamma"⟩
  | .value v => .value v

def TextMember.loads : TextMember → PathsMember
  | .object members =>
    .table (members.foldl (fun table member => table.insert member.1 member.2.loads) ∅)
  | .value v => .value v

-- `json.loads`, with the keys that the worker reads.
def JsonText.loads (text : JsonText) : JsonDocument where
  version := (lastOf text "version").map TextMember.plain
  default := (lastOf text "default").map fun member => member.entry.loads
  paths := (lastOf text "paths").map TextMember.loads
  alpha := (lastOf text "alpha").map TextMember.plain
  beta := (lastOf text "beta").map TextMember.plain
  gamma := (lastOf text "gamma").map TextMember.plain
  source := (lastOf text "source").map TextMember.plain
  metric := (lastOf text "metric").map TextMember.plain

end Python

section Go

-- `encoding/json` matches the keys of a struct without regard to case, and for Unicode the
-- long s is another case of s.
def foldKey (key : String) : List Char :=
  key.toList.map fun c => if c = 'ſ' then 's' else c.toLower

def matchesName {α : Type} (name : String) (member : String × α) : Bool :=
  foldKey member.1 = name.toList

-- Every member that matches is decoded into the field, one after the other.
def decodeField {α β : Type} (decode : β → α → β) (name : String) (old : β)
    (members : List (String × α)) : β :=
  (members.filter (matchesName name)).foldl (fun current member => decode current member.2) old

def fieldFits {α : Type} (fits : α → Bool) (name : String) (members : List (String × α)) : Bool :=
  (members.filter (matchesName name)).all fun member => fits member.2

def decodeTextEntry (old : CoeffEntry) : TextEntry → CoeffEntry
  | .object members =>
    let decode := fun current v => decodeFloat current (some v)
    ⟨decodeField decode "alpha" old.alpha members, decodeField decode "beta" old.beta members,
      decodeField decode "gamma" old.gamma members⟩
  | .value _ => old

def textEntryFits : TextEntry → Bool
  | .object members =>
    let fits := fun v => floatFits (some v)
    fieldFits fits "alpha" members && fieldFits fits "beta" members && fieldFits fits "gamma" members
  | .value v => v = .null

-- The entries go into the map that is there, each starting from zero. Null drops the map.
def decodeTextPaths (old : AList fun _ : String => CoeffEntry) :
    TextMember → AList fun _ : String => CoeffEntry
  | .object members =>
    members.foldl (fun paths member => paths.insert member.1 (decodeTextEntry ⟨0, 0, 0⟩ member.2)) old
  | .value .null => ∅
  | .value _ => old

def textPathsFit : TextMember → Bool
  | .object members => members.all fun member => textEntryFits member.2
  | .value v => v = .null

namespace JsonText

def unmarshal (old : CoeffsDocument) (text : JsonText) : CoeffsDocument where
  version := decodeField (fun n member => decodeInt n (some member.plain)) "version" old.version text
  default := decodeField (fun e member => decodeTextEntry e member.entry) "default" old.default text
  paths := decodeField decodeTextPaths "paths" old.paths text
  alpha := decodeField (fun q member => decodeFloat q (some member.plain)) "alpha" old.alpha text
  beta := decodeField (fun q member => decodeFloat q (some member.plain)) "beta" old.beta text
  gamma := decodeField (fun q member => decodeFloat q (some member.plain)) "gamma" old.gamma text
  source := decodeField (fun s member => decodeString s (some member.plain)) "source" old.source text
  metric := decodeField (fun s member => decodeString s (some member.plain)) "metric" old.metric text

def unmarshals (text : JsonText) : Bool :=
  fieldFits (fun member => intFits (some member.plain)) "version" text &&
    fieldFits (fun member => textEntryFits member.entry) "default" text &&
    fieldFits textPathsFit "paths" text &&
    (["alpha", "beta", "gamma"].all fun name =>
      fieldFits (fun member => floatFits (some member.plain)) name text) &&
    ["source", "metric"].all fun name =>
      fieldFits (fun member => stringFits (some member.plain)) name text

def loadQAccessCoeffsDocument (text : JsonText) : CoeffsDocument × Option LoadError :=
  let decoded := text.unmarshal defaultQAccessCoeffsDocument
  if text.unmarshals then (normalizeCoeffsDocument decoded, none)
  else (decoded, some .unmarshal)

def goCoefficients (text : JsonText) (pathID : Nat) : CoeffEntry :=
  (resolveCoefficientsForPath text.loadQAccessCoeffsDocument.1 pathID).entry

def workerCoefficients (text : JsonText) (pathID : Nat) : Except PyError CoeffEntry :=
  QAccess.workerCoefficients (.json text.loads) pathID

end JsonText

end Go

namespace CoeffsDocument

def flat (doc : CoeffsDocument) : CoeffEntry :=
  ⟨doc.alpha, doc.beta, doc.gamma⟩

-- The flat values of a document that is not of version 1 come before its entries.
def entryFor (doc : CoeffsDocument) (pathID : Nat) : Option CoeffEntry :=
  if doc.version ≠ qaccessCoeffsVersion ∧ doc.flat.valid then none
  else (doc.paths.lookup (formatPathID pathID)).filter CoeffEntry.valid

def defaultFor (doc : CoeffsDocument) : CoeffEntry :=
  if doc.version = qaccessCoeffsVersion then
    if doc.default.valid then doc.default else defaultEntry
  else if doc.flat.valid then doc.flat
  else if doc.default.valid then doc.default
  else defaultQAccessTCoefficients.entry

end CoeffsDocument

section Agreement

theorem resolve_otherVersion {doc : CoeffsDocument} (hversion : doc.version ≠ qaccessCoeffsVersion)
    (pathID : Nat) :
    (resolveCoefficientsForPath doc pathID).entry = (doc.entryFor pathID).getD doc.defaultFor := by
  unfold CoeffsDocument.entryFor CoeffsDocument.defaultFor
  rw [if_neg hversion]
  by_cases hflat : doc.flat.valid = true
  · have hnormal : normalizeCoeffsDocument doc = { doc with
        version := qaccessCoeffsVersion, default := doc.flat, paths := ∅ } := by
      unfold normalizeCoeffsDocument
      exact (if_neg hversion).trans (if_pos hflat)
    rw [if_pos ⟨hversion, hflat⟩, if_pos hflat]
    unfold resolveCoefficientsForPath
    rw [hnormal]
    exact congrArg QAccessCoefficients.entry (if_pos hflat)
  · have hnormal : normalizeCoeffsDocument doc = doc := by
      unfold normalizeCoeffsDocument
      exact (if_neg hversion).trans (if_neg hflat)
    have hfallback : ∀ metric, (fallbackCoefficients doc metric).entry =
        if doc.default.valid then doc.default else defaultQAccessTCoefficients.entry := by
      intro metric
      unfold fallbackCoefficients
      split
      · rfl
      · exact congrArg QAccessCoefficients.entry (if_neg fun h => hflat h.2)
    rw [if_neg fun h => hflat h.2, if_neg hflat]
    unfold resolveCoefficientsForPath
    rw [hnormal]
    dsimp only
    cases hfound : doc.paths.lookup (formatPathID pathID) with
    | none => exact hfallback _
    | some e =>
      dsimp only [Option.filter]
      cases hvalid : e.valid with
      | true => rfl
      | false => exact hfallback _

theorem resolve_entry (doc : CoeffsDocument) (pathID : Nat) :
    (resolveCoefficientsForPath doc pathID).entry = (doc.entryFor pathID).getD doc.defaultFor := by
  by_cases hversion : doc.version = qaccessCoeffsVersion
  · have hentries : ¬(doc.version ≠ qaccessCoeffsVersion ∧ doc.flat.valid = true) :=
      fun h => h.1 hversion
    rw [resolve_versionOne hversion, CoeffsDocument.entryFor, CoeffsDocument.defaultFor,
      if_neg hentries, if_pos hversion]
  · exact resolve_otherVersion hversion pathID

theorem JsonText.goCoefficients_eq (text : JsonText) (pathID : Nat) :
    text.goCoefficients pathID =
      ((text.unmarshal defaultQAccessCoeffsDocument).entryFor pathID).getD
        (text.unmarshal defaultQAccessCoeffsDocument).defaultFor := by
  rw [← resolve_entry]
  unfold JsonText.goCoefficients JsonText.loadQAccessCoeffsDocument
  dsimp only
  split
  · rw [resolve_normalize]
  · rfl

end Agreement

-- Go takes the key for that of the default entry, Python does not.
example :
    let text : JsonText := [("version", .value (.integer 1)),
      ("Default", .object [("alpha", .value (.decimal 0.8)), ("beta", .value (.decimal 0.2)),
        ("gamma", .value (.decimal 0.2))])]
    text.workerCoefficients 0 = .ok ⟨0.6, 0.3, 0.1⟩ ∧ text.goCoefficients 0 = ⟨0.8, 0.2, 0.2⟩ := by
  decide +kernel

section Plain

-- Every key that Go takes for one of the names is spelled like it, and no key is repeated.
def PlainKeys {α : Type} (names : List String) (members : List (String × α)) : Prop :=
  (members.map Prod.fst).Nodup ∧
    ∀ member ∈ members, ∀ name ∈ names, matchesName name member = true → member.1 = name

def TextEntry.Plain : TextEntry → Prop
  | .object members => PlainKeys ["alpha", "beta", "gamma"] members
  | .value _ => True

structure JsonText.Plain (text : JsonText) : Prop where
  keys : PlainKeys ["version", "default", "paths", "alpha", "beta", "gamma", "source", "metric"] text
  default : ∀ member, ("default", member) ∈ text → member.entry.Plain
  paths : ∀ entries, ("paths", .object entries) ∈ text → ∀ entry ∈ entries, entry.2.Plain

variable {α β : Type} {names : List String} {name key : String}

theorem lastOf_concat (front : List (String × α)) (last : String × α) (key : String) :
    lastOf (front ++ [last]) key = if key = last.1 then some last.2 else lastOf front key := by
  unfold lastOf
  rw [List.reverse_concat, List.lookup_cons]
  by_cases hkey : key = last.1
  · simp [hkey]
  · rw [if_neg hkey, beq_eq_false_iff_ne.mpr hkey]

theorem mem_of_lastOf {members : List (String × α)} {found : α}
    (hfound : lastOf members key = some found) : (key, found) ∈ members := by
  induction members using List.reverseRecOn with
  | nil => cases hfound
  | append_singleton front last ih =>
    rw [lastOf_concat] at hfound
    split at hfound
    · rename_i hkey
      cases hfound
      simp [hkey]
    · exact List.mem_append_left _ (ih hfound)

theorem decodeField_of_plain (decode : β → α → β) (old : β) (hname : name ∈ names)
    (hlower : foldKey name = name.toList) {members : List (String × α)}
    (hplain : PlainKeys names members) :
    decodeField decode name old members = ((lastOf members name).map (decode old)).getD old := by
  induction members using List.reverseRecOn with
  | nil => rfl
  | append_singleton front last ih =>
    obtain ⟨hnodup, hspelled⟩ := hplain
    rw [List.map_append, List.nodup_append] at hnodup
    have hfront := ih ⟨hnodup.1, fun member hmember => hspelled member (List.mem_append_left _ hmember)⟩
    have hstep : decodeField decode name old (front ++ [last]) =
        if matchesName name last then decode (decodeField decode name old front) last.2
        else decodeField decode name old front := by
      unfold decodeField
      rw [List.filter_append, List.foldl_append, List.filter_singleton]
      cases matchesName name last <;> rfl
    rw [hstep, lastOf_concat, hfront]
    by_cases hkey : name = last.1
    · have hmatches : matchesName name last = true := by
        unfold matchesName
        rw [← hkey]
        exact decide_eq_true hlower
      have hnone : lastOf front name = none := by
        rw [Option.eq_none_iff_forall_not_mem]
        intro found hfound
        exact hnodup.2.2 name (List.mem_map_of_mem (mem_of_lastOf hfound)) last.1 (by simp) hkey
      rw [if_pos hmatches, if_pos hkey, hnone]
      rfl
    · have hother : ¬matchesName name last = true :=
        fun h => hkey (hspelled last (by simp) name hname h).symm
      rw [if_neg hother, if_neg hkey]

theorem decodeTextEntry_of_plain (old : CoeffEntry) {e : TextEntry} (hplain : e.Plain) :
    decodeTextEntry old e = decodeEntry old (some e.loads) := by
  cases e with
  | value v => rfl
  | object members =>
    have hfield : ∀ name ∈ ["alpha", "beta", "gamma"], ∀ q,
        decodeField (fun current v => decodeFloat current (some v)) name q members =
          decodeFloat q (lastOf members name) := by
      intro name hname q
      rw [decodeField_of_plain _ q hname (by fin_cases hname <;> decide) hplain]
      cases lastOf members name <;> rfl
    dsimp only [decodeTextEntry, TextEntry.loads, decodeEntry]
    rw [hfield "alpha" (by simp), hfield "beta" (by simp), hfield "gamma" (by simp)]

theorem lookup_foldl_insert (f : α → β) (members : List (String × α)) (key : String) :
    (members.foldl (fun table member => table.insert member.1 (f member.2))
      (∅ : AList fun _ : String => β)).lookup key = (lastOf members key).map f := by
  induction members using List.reverseRecOn with
  | nil => rfl
  | append_singleton front last ih =>
    rw [List.foldl_append, lastOf_concat]
    by_cases hkey : key = last.1
    · rw [if_pos hkey, hkey]
      exact AList.lookup_insert _
    · rw [if_neg hkey, ← ih]
      exact AList.lookup_insert_ne hkey

theorem lookup_paths_of_plain {text : JsonText} (hplain : text.Plain) (pathID : Nat) :
    (text.unmarshal defaultQAccessCoeffsDocument).paths.lookup (formatPathID pathID) =
      (unmarshal defaultQAccessCoeffsDocument text.loads).paths.lookup (formatPathID pathID) := by
  change (decodeField decodeTextPaths "paths" ∅ text).lookup _ =
    (decodePaths ((lastOf text "paths").map TextMember.loads)).lookup _
  rw [decodeField_of_plain _ _ (by simp) (by decide) hplain.keys]
  cases hlast : lastOf text "paths" with
  | none => rfl
  | some member =>
    cases member with
    | value v => cases v <;> rfl
    | object entries =>
      dsimp only [Option.map, Option.getD, decodeTextPaths, TextMember.loads, decodePaths]
      rw [lookup_foldl_insert, lookup_filterMapValues, lookup_foldl_insert]
      cases hfound : lastOf entries (formatPathID pathID) with
      | none => rfl
      | some e =>
        have he := hplain.paths entries (mem_of_lastOf hlast) _ (mem_of_lastOf hfound)
        exact congrArg some (decodeTextEntry_of_plain _ he)

-- For plain documents, the model that knows the keys only by their names decodes the same.
theorem goCoefficients_of_plain {text : JsonText} (hplain : text.Plain) (pathID : Nat) :
    goCoefficients (.json text.loads) pathID = text.goCoefficients pathID := by
  have hfield : ∀ {β : Type} (decode : β → Option Value → β) (old : β), ∀ name ∈
      ["version", "default", "paths", "alpha", "beta", "gamma", "source", "metric"],
      decode old none = old →
      decodeField (fun current member => decode current (some member.plain)) name old text =
        decode old ((lastOf text name).map TextMember.plain) := by
    intro β decode old name hname hnone
    rw [decodeField_of_plain _ old hname (by fin_cases hname <;> decide) hplain.keys]
    cases lastOf text name with
    | none => exact hnone.symm
    | some member => rfl
  have hversion : (text.unmarshal defaultQAccessCoeffsDocument).version =
      (unmarshal defaultQAccessCoeffsDocument text.loads).version :=
    hfield decodeInt _ "version" (by simp) rfl
  have hflat : (text.unmarshal defaultQAccessCoeffsDocument).flat =
      (unmarshal defaultQAccessCoeffsDocument text.loads).flat := by
    rw [CoeffsDocument.flat, CoeffsDocument.flat, CoeffEntry.mk.injEq]
    exact ⟨hfield decodeFloat _ "alpha" (by simp) rfl, hfield decodeFloat _ "beta" (by simp) rfl,
      hfield decodeFloat _ "gamma" (by simp) rfl⟩
  have hdefault : (text.unmarshal defaultQAccessCoeffsDocument).default =
      (unmarshal defaultQAccessCoeffsDocument text.loads).default := by
    change decodeField (fun e member => decodeTextEntry e member.entry) "default" defaultEntry text =
      decodeEntry defaultEntry ((lastOf text "default").map fun member => member.entry.loads)
    rw [decodeField_of_plain _ _ (by simp) (by decide) hplain.keys]
    cases hlast : lastOf text "default" with
    | none => rfl
    | some member => exact decodeTextEntry_of_plain _ (hplain.default member (mem_of_lastOf hlast))
  rw [text.goCoefficients_eq, goCoefficients, resolve_load, resolve_entry]
  unfold CoeffsDocument.entryFor CoeffsDocument.defaultFor
  rw [hversion, hflat, hdefault, lookup_paths_of_plain hplain]

end Plain

end MpQuic.QAccess

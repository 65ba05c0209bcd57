import Mathlib
import MpQuic.Library.Table

namespace MpQuic.QAccess

open MpQuic.Library

-- A JSON value where a number or a text is expected. Arrays and objects do not count as
-- either, and Python only asks if they are empty. The numbers are those of finite doubles;
-- a literal with a fraction or an exponent is a `decimal`.
inductive Value where
  | null
  | bool (b : Bool)
  | integer (n : Int)
  | decimal (q : ℚ)
  | text (s : String)
  | compound (empty : Bool)
  deriving DecidableEq

structure RawEntry where
  alpha : Option Value
  beta : Option Value
  gamma : Option Value
  deriving DecidableEq

inductive EntryMember where
  | entry (e : RawEntry)
  | value (v : Value)
  deriving DecidableEq

inductive PathsMember where
  | table (entries : AList fun _ : String => EntryMember)
  | value (v : Value)
  deriving DecidableEq

-- A coefficient document whose keys are spelled as the readers spell them, and none of them is
-- repeated. Keys that match none of these, in whatever case, are left out.
structure JsonDocument where
  version : Option Value
  default : Option EntryMember
  paths : Option PathsMember
  alpha : Option Value
  beta : Option Value
  gamma : Option Value
  source : Option Value
  metric : Option Value
  deriving DecidableEq

inductive CoeffsFile where
  | missing
  | garbled
  | json (doc : JsonDocument)
  deriving DecidableEq

structure CoeffEntry where
  alpha : ℚ
  beta : ℚ
  gamma : ℚ
  deriving DecidableEq

def validCoeffEntry (alpha beta gamma : ℚ) : Bool :=
  0 < alpha && alpha ≤ 2 && (0 ≤ beta && beta ≤ 1) && (0 ≤ gamma && gamma ≤ 1)

def CoeffEntry.valid (e : CoeffEntry) : Bool :=
  validCoeffEntry e.alpha e.beta e.gamma

theorem CoeffEntry.valid_iff {e : CoeffEntry} :
    e.valid = true ↔ (0 < e.alpha ∧ e.alpha ≤ 2) ∧ (0 ≤ e.beta ∧ e.beta ≤ 1) ∧
      0 ≤ e.gamma ∧ e.gamma ≤ 1 := by
  simp [CoeffEntry.valid, validCoeffEntry, and_assoc]

def defaultEntry : CoeffEntry := ⟨0.6, 0.3, 0.1⟩

section Go

structure QAccessCoefficients where
  alpha : ℚ
  beta : ℚ
  gamma : ℚ
  source : String
  metric : String
  deriving DecidableEq

def QAccessCoefficients.entry (c : QAccessCoefficients) : CoeffEntry :=
  ⟨c.alpha, c.beta, c.gamma⟩

structure CoeffsDocument where
  version : Int
  default : CoeffEntry
  paths : AList fun _ : String => CoeffEntry
  alpha : ℚ
  beta : ℚ
  gamma : ℚ
  source : String
  metric : String
  deriving DecidableEq

def qaccessCoeffsVersion : Int := 1

def defaultQAccessTCoefficients : QAccessCoefficients :=
  ⟨0.7, 0.1, 0.1, "builtin", "predicted_next_bw_bps"⟩

def defaultQAccessCoeffsDocument : CoeffsDocument where
  version := qaccessCoeffsVersion
  default := defaultEntry
  paths := ∅
  alpha := 0
  beta := 0
  gamma := 0
  source := ""
  metric := ""

-- `json.Unmarshal` leaves a field as it was if its key is missing, if the value is null, and
-- if the value has another type. In the last case it goes on, and returns an error at the end.
def decodeFloat (old : ℚ) : Option Value → ℚ
  | some (.integer n) => n
  | some (.decimal q) => q
  | _ => old

def floatFits : Option Value → Bool
  | none | some .null | some (.integer _) | some (.decimal _) => true
  | _ => false

def inInt64 (n : Int) : Bool :=
  -2 ^ 63 ≤ n && n < 2 ^ 63

def decodeInt (old : Int) : Option Value → Int
  | some (.integer n) => if inInt64 n then n else old
  | _ => old

def intFits : Option Value → Bool
  | none | some .null => true
  | some (.integer n) => inInt64 n
  | _ => false

def decodeString (old : String) : Option Value → String
  | some (.text s) => s
  | _ => old

def stringFits : Option Value → Bool
  | none | some .null | some (.text _) => true
  | _ => false

def decodeEntry (old : CoeffEntry) : Option EntryMember → CoeffEntry
  | some (.entry e) =>
    ⟨decodeFloat old.alpha e.alpha, decodeFloat old.beta e.beta, decodeFloat old.gamma e.gamma⟩
  | _ => old

def entryFits : Option EntryMember → Bool
  | none | some (.value .null) => true
  | some (.entry e) => floatFits e.alpha && floatFits e.beta && floatFits e.gamma
  | some (.value _) => false

-- An entry of a map starts from zero.
def decodePaths : Option PathsMember → AList fun _ : String => CoeffEntry
  | some (.table entries) =>
    filterMapValues (fun member => some (decodeEntry ⟨0, 0, 0⟩ (some member))) entries
  | _ => ∅

def pathsFit : Option PathsMember → Bool
  | none | some (.value .null) => true
  | some (.table entries) => entries.entries.all fun entry => entryFits (some entry.2)
  | some (.value _) => false

def unmarshal (old : CoeffsDocument) (doc : JsonDocument) : CoeffsDocument where
  version := decodeInt old.version doc.version
  default := decodeEntry old.default doc.default
  paths := decodePaths doc.paths
  alpha := decodeFloat old.alpha doc.alpha
  beta := decodeFloat old.beta doc.beta
  gamma := decodeFloat old.gamma doc.gamma
  source := decodeString old.source doc.source
  metric := decodeString old.metric doc.metric

def unmarshals (doc : JsonDocument) : Bool :=
  intFits doc.version && entryFits doc.default && pathsFit doc.paths && floatFits doc.alpha &&
    floatFits doc.beta && floatFits doc.gamma && stringFits doc.source && stringFits doc.metric

def cleanPaths (paths : AList fun _ : String => CoeffEntry) : AList fun _ : String => CoeffEntry :=
  filterMapValues (fun e => if e.valid then some e else none) paths

def normalizeCoeffsDocument (doc : CoeffsDocument) : CoeffsDocument :=
  if doc.version = qaccessCoeffsVersion then
    { doc with
      default := if doc.default.valid then doc.default else defaultQAccessCoeffsDocument.default
      paths := cleanPaths doc.paths }
  else if validCoeffEntry doc.alpha doc.beta doc.gamma then
    { doc with
      version := qaccessCoeffsVersion
      default := ⟨doc.alpha, doc.beta, doc.gamma⟩
      paths := ∅ }
  else doc

inductive LoadError where
  | readFile
  | unmarshal
  deriving DecidableEq

def loadQAccessCoeffsDocument : CoeffsFile → CoeffsDocument × Option LoadError
  | .missing => (defaultQAccessCoeffsDocument, some .readFile)
  | .garbled => (defaultQAccessCoeffsDocument, some .unmarshal)
  | .json doc =>
    let decoded := unmarshal defaultQAccessCoeffsDocument doc
    if unmarshals doc then (normalizeCoeffsDocument decoded, none)
    else (decoded, some .unmarshal)

def digitsValue (key : String) : Nat :=
  key.toList.foldl (fun acc c => acc * 10 + (c.toNat - '0'.toNat)) 0

def formatPathID (pathID : Nat) : String :=
  Nat.repr pathID

def fallbackCoefficients (doc : CoeffsDocument) (metric : String) : QAccessCoefficients :=
  if doc.default.valid then
    ⟨doc.default.alpha, doc.default.beta, doc.default.gamma, "default", metric⟩
  else if doc.version ≠ qaccessCoeffsVersion ∧ validCoeffEntry doc.alpha doc.beta doc.gamma then
    ⟨doc.alpha, doc.beta, doc.gamma, "legacy", doc.metric⟩
  else defaultQAccessTCoefficients

def resolveCoefficientsForPath (doc : CoeffsDocument) (pathID : Nat) : QAccessCoefficients :=
  let doc := normalizeCoeffsDocument doc
  let metric := if doc.metric = "" then "unknown" else doc.metric
  match doc.paths.lookup (formatPathID pathID) with
  | some e =>
    if e.valid then ⟨e.alpha, e.beta, e.gamma, "per_path", metric⟩
    else fallbackCoefficients doc metric
  | none => fallbackCoefficients doc metric

end Go

section Python

inductive PyError where
  | attributeError
  | keyError
  | valueError
  | stopIteration
  | overflowError
  deriving DecidableEq

def Value.truthy : Value → Bool
  | .null => false
  | .bool b => b
  | .integer n => n ≠ 0
  | .decimal q => q ≠ 0
  | .text s => s ≠ ""
  | .compound empty => !empty

def Value.number : Value → Option ℚ
  | .bool b => some (if b then 1 else 0)
  | .integer n => some n
  | .decimal q => some q
  | _ => none

def numberOf (v : Option Value) : Option ℚ :=
  v.bind Value.number

def acceptedEntry (alpha beta gamma : Option Value) : Option CoeffEntry :=
  match numberOf alpha, numberOf beta, numberOf gamma with
  | some a, some b, some g => if validCoeffEntry a b g then some ⟨a, b, g⟩ else none
  | _, _, _ => none

def CoeffEntry.raw (e : CoeffEntry) : RawEntry :=
  ⟨some (.decimal e.alpha), some (.decimal e.beta), some (.decimal e.gamma)⟩

-- A document that `normalize_coeffs_doc` returns. The default entry is kept as it was read.
structure PyDocument where
  version : Option Value
  default : RawEntry
  paths : AList fun _ : String => CoeffEntry
  alpha : Option Value
  beta : Option Value
  gamma : Option Value
  source : Option Value
  metric : Option Value
  deriving DecidableEq

def PyDocument.json (doc : PyDocument) : JsonDocument where
  version := doc.version
  default := some (.entry doc.default)
  paths := some (.table (filterMapValues (fun e => some (.entry e.raw)) doc.paths))
  alpha := doc.alpha
  beta := doc.beta
  gamma := doc.gamma
  source := doc.source
  metric := doc.metric

def defaultDoc : PyDocument where
  version := some (.integer 1)
  default := defaultEntry.raw
  paths := ∅
  alpha := none
  beta := none
  gamma := none
  source := none
  metric := none

-- `doc.get("version") == 1`
def isVersionOne : Option Value → Bool
  | some (.bool b) => b
  | some (.integer n) => n = 1
  | some (.decimal q) => q = 1
  | _ => false

-- `doc.get("default") or {}`
def defaultOf : Option EntryMember → Except PyError RawEntry
  | none => .ok ⟨none, none, none⟩
  | some (.entry e) => .ok e
  | some (.value v) => if v.truthy then .error .attributeError else .ok ⟨none, none, none⟩

-- `doc.get("paths") or {}`
def pathsOf : Option PathsMember → Except PyError (AList fun _ : String => EntryMember)
  | none => .ok ∅
  | some (.table entries) => .ok entries
  | some (.value v) => if v.truthy then .error .attributeError else .ok ∅

-- `default.get(key, 0)`: a key that is missing counts as zero, but null does not.
def orZero (v : Option Value) : Option Value :=
  some (v.getD (.integer 0))

def acceptsDefault (e : RawEntry) : Option CoeffEntry :=
  acceptedEntry (orZero e.alpha) (orZero e.beta) (orZero e.gamma)

def acceptedMember : EntryMember → Option CoeffEntry
  | .entry e => acceptedEntry e.alpha e.beta e.gamma
  | .value _ => none

def keepTruthy (v : Option Value) : Option Value :=
  v.filter Value.truthy

def normalizeCoeffsDoc (doc : JsonDocument) : Except PyError PyDocument :=
  if isVersionOne doc.version then do
    let default ← defaultOf doc.default
    let default := if (acceptsDefault default).isSome then default else defaultEntry.raw
    let paths ← pathsOf doc.paths
    return { version := doc.version, default := default,
             paths := filterMapValues acceptedMember paths,
             alpha := doc.alpha, beta := doc.beta, gamma := doc.gamma,
             source := doc.source, metric := doc.metric }
  else
    match acceptedEntry doc.alpha doc.beta doc.gamma with
    | some e =>
      .ok { defaultDoc with
            default := e.raw, source := keepTruthy doc.source, metric := keepTruthy doc.metric }
    | none => .ok defaultDoc

def loadCoeffsDoc : CoeffsFile → Except PyError PyDocument
  | .missing | .garbled => .ok defaultDoc
  | .json doc => normalizeCoeffsDoc doc

-- `float(default[key])`
def readKey (v : Option Value) : Except PyError ℚ :=
  match numberOf v with
  | some q => .ok q
  | none => .error .keyError

def resolveDefault (e : RawEntry) : Except PyError (CoeffEntry × String) :=
  if (acceptsDefault e).isSome then do
    let alpha ← readKey e.alpha
    let beta ← readKey e.beta
    let gamma ← readKey e.gamma
    return (⟨alpha, beta, gamma⟩, "default")
  else .ok (⟨0.7, 0.1, 0.1⟩, "builtin")

def resolvePathCoeffs (doc : PyDocument) (pathID : Int) : Except PyError (CoeffEntry × String) := do
  let doc ← normalizeCoeffsDoc doc.json
  match doc.paths.lookup (Int.repr pathID) with
  | some e => if e.valid then return (e, "per_path") else resolveDefault doc.default
  | none => resolveDefault doc.default

-- One path's entry is replaced in the file. The other metadata is not read again.
def updatePathCoeffsLocked (file : CoeffsFile) (pathID : Int) (e : CoeffEntry)
    (metric : Option String) : Except PyError CoeffsFile :=
  if e.valid then do
    let loaded ← loadCoeffsDoc file
    let doc ← normalizeCoeffsDoc loaded.json
    return .json ({ doc with
      paths := doc.paths.insert (Int.repr pathID) e
      source := some (.text "qaccess_update_worker.py")
      metric := (metric.map Value.text).orElse fun _ => doc.metric }).json
  else .error .valueError

end Python

end MpQuic.QAccess

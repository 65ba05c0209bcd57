import MpQuic.QAccess.Document

namespace MpQuic.QAccess

-- The columns of the runtime samples that the worker reads.
inductive Column where
  | bwBps
  | owdMs
  | delayGradientMs
  | lossRate
  | lostBytesDelta
  | retransBytesDelta
  | cwndBytes
  | inflightBytes
  | cwndRoom
  | alpha
  | beta
  | gamma
  | utility
  | gain
  | backoff
  | nextBwBps
  | pathID
  | senderBytesTotal
  | endpointRole
  deriving DecidableEq

def features : List Column :=
  [.bwBps, .owdMs, .delayGradientMs, .lossRate, .lostBytesDelta, .retransBytesDelta, .cwndBytes,
    .inflightBytes, .cwndRoom, .alpha, .beta, .gamma, .utility, .gain, .backoff]

def numericColumns : List Column :=
  features ++ [.nextBwBps, .pathID, .senderBytesTotal]

inductive Cell where
  | nan
  | number (q : ℚ)
  | infinity (negative : Bool)
  | text (s : String)
  deriving DecidableEq

structure Frame where
  columns : List Column
  rows : List (Column → Cell)

namespace Cell

-- `pd.to_numeric(..., errors="coerce")`
def toNumeric : Cell → Cell
  | .text _ => .nan
  | cell => cell

-- `.fillna(0) > bound` for a bound that is not negative
def exceeds (bound : ℚ) : Cell → Bool
  | .number q => bound < q
  | .infinity negative => !negative
  | _ => false

def nonNegative : Cell → Bool
  | .number q => 0 ≤ q
  | .infinity negative => !negative
  | _ => false

-- `.replace([np.inf, -np.inf], 0).fillna(0)`
def finite : Cell → Cell
  | .number q => .number q
  | _ => .number 0

-- `.clip(lower=0)`
def clip : Cell → Cell
  | .number q => .number (max q 0)
  | cell => cell

end Cell

def clippedColumns : List Column :=
  [.bwBps, .owdMs, .lossRate, .cwndBytes, .inflightBytes, .cwndRoom]

namespace Frame

def activeRow (df : Frame) (row : Column → Cell) : Bool :=
  (Column.bwBps ∈ df.columns && (row .bwBps).exceeds 0) ||
    (Column.owdMs ∈ df.columns && (row .owdMs).exceeds 0) ||
    (Column.inflightBytes ∈ df.columns && (row .inflightBytes).exceeds 1024)

def numericRow (df : Frame) (row : Column → Cell) (column : Column) : Cell :=
  if column ∈ numericColumns ∧ column ∈ df.columns then (row column).toNumeric else row column

def cleanCell (df : Frame) (row : Column → Cell) (column : Column) : Cell :=
  if column ∈ features then
    let cell := if column ∈ df.columns then (row column).finite else .number 0
    if column ∈ clippedColumns then cell.clip else cell
  else row column

-- Without any of the columns that say if a row is active, the mask is a plain `False`, which is
-- not a label of the index.
def cleanRuntimeSamples (df : Frame) : Except PyError Frame :=
  if df.rows = [] then .ok df
  else if Column.bwBps ∉ df.columns ∧ Column.owdMs ∉ df.columns ∧
      Column.inflightBytes ∉ df.columns then .error .keyError
  else
    let numeric := df.rows.map df.numericRow
    let labelled := numeric.filter fun row =>
      Column.nextBwBps ∉ df.columns || (row .nextBwBps).nonNegative
    .ok { columns := df.columns ++ features.filter fun column => column ∉ df.columns
          rows := (labelled.filter df.activeRow).map df.cleanCell }

end Frame

inductive ExclusionReason where
  | insufficientRows
  | missingSenderBytes
  | noSenderByteGrowth
  | missingModelFeatures
  deriving DecidableEq

structure PathDiagnostics where
  pathID : Int
  samples : List (Column → Cell)
  senderByteDelta : Int
  reasons : List ExclusionReason

def PathDiagnostics.eligible (item : PathDiagnostics) : Bool :=
  item.reasons.isEmpty

-- `int(value)`
def truncate (q : ℚ) : Int :=
  q.num.tdiv q.den

-- `[int(value) for value in sent.tolist()]` after the rows without a number are dropped
def senderValues : List Cell → Except PyError (List Int)
  | [] => .ok []
  | .number q :: rest => do
      let values ← senderValues rest
      return truncate q :: values
  | .infinity _ :: _ => .error .overflowError
  | _ :: rest => senderValues rest

def senderDelta : List Int → Int
  | before :: after :: rest => max 0 (after - before) + senderDelta (after :: rest)
  | _ => 0

namespace Frame

def rowsOfPath (df : Frame) (pathID : ℚ) : List (Column → Cell) :=
  df.rows.filter fun row => row .pathID = .number pathID

-- The groups of `groupby("path_id", sort=True)`; rows without a path ID are in none.
def pathNumbers (df : Frame) : List ℚ :=
  (df.rows.filterMap fun row =>
    match row .pathID with
    | .number q => some q
    | _ => none).dedup.insertionSort (· ≤ ·)

def classifyPath (df : Frame) (minRows : Nat) (minSenderByteDelta : Int) (pathID : ℚ) :
    Except PyError PathDiagnostics := do
  let work := df.rowsOfPath pathID
  let values ← senderValues
    (if Column.senderBytesTotal ∈ df.columns then work.map fun row => row .senderBytesTotal else [])
  let delta := senderDelta values
  return {
    pathID := truncate pathID
    samples := work
    senderByteDelta := delta
    reasons :=
      (if work.length < minRows then [.insufficientRows] else []) ++
        (if values.length < 2 then [.missingSenderBytes]
          else if delta < minSenderByteDelta then [.noSenderByteGrowth] else []) ++
        (if features.all fun column => column ∈ df.columns then [] else [.missingModelFeatures]) }

-- A group for an infinite path ID cannot be converted.
def classifyMediaPaths (df : Frame) (minRows : Nat) (minSenderByteDelta : Int) :
    Except PyError (List PathDiagnostics) :=
  if df.rows = [] ∨ Column.pathID ∉ df.columns then .ok []
  else if df.rows.any fun row => row .pathID = .infinity true ∨ row .pathID = .infinity false then
    .error .overflowError
  else df.pathNumbers.mapM (df.classifyPath minRows minSenderByteDelta)

end Frame

end MpQuic.QAccess

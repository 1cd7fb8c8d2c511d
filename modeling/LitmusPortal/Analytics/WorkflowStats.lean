import LitmusPortal.Analytics.HeatMap
import LitmusPortal.GitOps.Sync
import LitmusPortal.Lib.Range
import Mathlib.Data.List.AList
import Mathlib.Data.List.Sort

/-!
# The statistics of workflows

`ListWorkflowStats` counts workflows or their runs by month, day or hour. The buckets of a window are put
into a map first, under a key made of the local date, and every item counts one in the bucket of its key. The
map is ranged over in some order, and its buckets are sorted by their dates.
-/

namespace LitmusPortal.Analytics

open LitmusPortal Calendar GoStrings RangeLoop

inductive TimeFrequency where
  | monthly
  | daily
  | hourly
  deriving DecidableEq, Repr

structure WorkflowStatsResponse where
  date : Int
  value : ℕ
  deriving DecidableEq, Repr

/-! ### Local time -/

def yearAt (zone unix : Int) : Int := yearOf ((localDays zone).index unix)

def monthAt (zone unix : Int) : Int := monthOfYear (monthOf ((localDays zone).index unix)) + 1

def dayAt (zone unix : Int) : Int := monthDay ((localDays zone).index unix) + 1

def hourAt (zone unix : Int) : Int := (unix - (localDays zone).start ((localDays zone).index unix)) / 3600

/-- `AddDate(0, months, 0)`, which keeps the time of the day. -/
def addMonthsAt (zone unix months : Int) : Int :=
  (localDays zone).start (addMonths ((localDays zone).index unix) months) +
    (unix - (localDays zone).start ((localDays zone).index unix))

/-! ### The aggregation -/

/-- The earliest time of the query. -/
def windowStart (zone now : Int) : TimeFrequency → Int
  | .monthly => addMonthsAt zone now (-6)
  | .daily => addDays now (-28)
  | .hourly => now + 3600 * -48

/-- The match of the timestamps, which are strings. -/
def inQuery (zone now : Int) (filter : TimeFrequency) (time : String) : Bool :=
  toString (windowStart zone now filter) ≤ time ∧ time ≤ toString now

/-- The timestamps of the items of the answer that are counted. -/
def fetchedTimes (zone now : Int) (workflows : List ChaosWorkFlow) (projectID : String) (filter : TimeFrequency)
    (showWorkflowRuns : Bool) : List String :=
  let workflows := workflows.filter fun workflow => workflow.projectID = projectID ∧ workflow.isRemoved = false
  if showWorkflowRuns then
    let runs := workflows.flatMap fun workflow => workflow.workflowRuns.filter kept
    (runs.filter fun wfRun => inQuery zone now filter wfRun.lastUpdated).map ChaosWorkflowRun.lastUpdated
  else
    (workflows.filter fun workflow => inQuery zone now filter workflow.createdAt).map ChaosWorkFlow.updatedAt

/-! ### The buckets -/

abbrev StatsMap := AList fun _ : String => WorkflowStatsResponse

/-- `string(code)` of an integer. -/
def stringOfCode (code : Int) : String := String.singleton (Char.ofNat code.toNat)

/-- `fmt.Sprintf("%d-%d", ...)` -/
def dashed (left right : Int) : String := toString left ++ "-" ++ toString right

/-- The key under which a bucket is put. -/
def bucketKey (zone unix : Int) : TimeFrequency → String
  | .monthly => stringOfCode (monthAt zone unix % 12)
  | .daily => dashed (monthAt zone unix) (dayAt zone unix)
  | .hourly => dashed (dayAt zone unix) (hourAt zone unix)

/-- The first second of the month, day or hour. -/
def bucketDate (zone unix : Int) : TimeFrequency → Int
  | .monthly => timeDate zone (yearAt zone unix) (monthAt zone unix) 1 0 0 0
  | .daily => timeDate zone (yearAt zone unix) (monthAt zone unix) (dayAt zone unix) 0 0 0
  | .hourly => timeDate zone (yearAt zone unix) (monthAt zone unix) (dayAt zone unix) (hourAt zone unix) 0 0

def firstBucket (zone now : Int) : TimeFrequency → Int
  | .monthly => addMonthsAt zone now (-5)
  | .daily => addDays now (-28)
  | .hourly => now + 3600 * -48

def nextBucket (zone unix : Int) : TimeFrequency → Int
  | .monthly => addMonthsAt zone unix 1
  | .daily => addDays unix 1
  | .hourly => unix + 3600 * 1

def initialMap (zone now : Int) (filter : TimeFrequency) : StatsMap :=
  (timesUpTo (fun unix => nextBucket zone unix filter) now (firstBucket zone now filter)).foldl
    (fun statsMap unix => statsMap.insert (bucketKey zone unix filter) ⟨bucketDate zone unix filter * 1000, 0⟩) ∅

/-- The key under which an item is counted. -/
def countKey (zone unix : Int) : TimeFrequency → String
  | .monthly => stringOfCode (monthAt zone unix)
  | .daily => dashed (monthAt zone unix) (dayAt zone unix)
  | .hourly => dashed (dayAt zone unix) (hourAt zone unix)

def parseIntError (time : String) : GoError := .failed ("strconv.ParseInt: parsing " ++ time)

/-- A key that is missing has the zero bucket. -/
def createDateMap (zone : Int) (filter : TimeFrequency) (statsMap : StatsMap) (updatedAt : String) :
    Except GoError StatsMap :=
  match atoi updatedAt with
  | none => .error (parseIntError updatedAt)
  | some unix =>
      let bucket := (statsMap.lookup (countKey zone unix filter)).getD ⟨0, 0⟩
      .ok (statsMap.insert (countKey zone unix filter) { bucket with value := bucket.value + 1 })

/-- The loop over the map, in some order, and the sort. -/
def sortedBuckets (order : RangeOrder) (statsMap : StatsMap) : List WorkflowStatsResponse :=
  ((order.order statsMap.keys).filterMap statsMap.lookup).insertionSort fun left right => left.date ≤ right.date

/-- An answer that cannot be read gives no buckets and no error. -/
def listWorkflowStats (zone now : Int) (order : RangeOrder) (aggregateFails readFails : Bool)
    (workflows : List ChaosWorkFlow) (projectID : String) (filter : TimeFrequency) (showWorkflowRuns : Bool) :
    Except GoError (List WorkflowStatsResponse) :=
  if aggregateFails then .error databaseError
  else
    let times := fetchedTimes zone now workflows projectID filter showWorkflowRuns
    if readFails ∨ times = [] then .ok []
    else do
      let statsMap ← times.foldlM (createDateMap zone filter) (initialMap zone now filter)
      return sortedBuckets order statsMap

end LitmusPortal.Analytics

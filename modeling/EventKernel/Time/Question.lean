import EventKernel.Time.Resolution

/-!
# Questions about time

Questions that may depend on the unit of a tick, and how each of them changes its choice. Answers are
times, numbers and texts.
-/

namespace EventKernel

/-- A question about time. -/
inductive TimeQuestion where
  | resolution
  | choose (u : TimeUnit)
  | ofUnit (n : Int) (u : TimeUnit)
  | ofSeconds (x : Binary64)
  | inUnit (t : Time) (u : TimeUnit)
  | inSeconds (t : Time)
  | scaleBy (t : Time) (x : Binary64)
  | add (t u : Time)
  | sub (t u : Time)
  | neg (t : Time)
  | scale (t : Time) (n : Int)
  | checkedAdd (t u : Time)
  | since (t u : Time)
  | flags (t : Time)
  | compare (t u : Time)
  | print (t : Time)
  | constants

/-- The answer to a question about time. -/
inductive TimeAnswer where
  | unit (u : TimeUnit)
  | chosen (result : Except ResolutionFrozen PUnit)
  | time (t : Time)
  | time? (t : Option Time)
  | number (n : Int)
  | real (x : Binary64)
  | flags (isNegative isZero isNever : Bool)
  | ordering (o : Ordering)
  | text (s : String)
  | times (ts : List Time)

/-- Answer a question; what needs the unit of a tick settles it. -/
def TimeQuestion.answer (r : Resolution) : TimeQuestion → TimeAnswer × Resolution
  | resolution => (.unit r.unit, r.settle)
  | choose u =>
    let (result, r) := r.choose u
    (.chosen result, r)
  | ofUnit n u => (.time (.ofUnit r.unit n u), r.settle)
  | ofSeconds x => (.time (.ofSeconds r.unit x), r.settle)
  | inUnit t u => (.number (t.inUnit r.unit u), r.settle)
  | inSeconds t => (.real (t.inSeconds r.unit), r.settle)
  | scaleBy t x => (.time (t.scaleBy x), r)
  | add t u => (.time (t + u), r)
  | sub t u => (.time (t - u), r)
  | neg t => (.time (-t), r)
  | scale t n => (.time (t.scale n), r)
  | checkedAdd t u => (.time? (t.checkedAdd u), r)
  | since t u => (.time? (t.since u), r)
  | flags t => (.flags t.isNegative t.isZero t.isNever, r)
  | compare t u => (.ordering (Ord.compare t u), r)
  | print t =>
    let (text, r) := t.print r
    (.text text, r)
  | constants => (.times [.zero, .never, .least, .zero], r)

def TimeQuestion.answerAll (r : Resolution) : List TimeQuestion → List TimeAnswer
  | [] => []
  | q :: qs =>
    let (a, r) := q.answer r
    a :: answerAll r qs

end EventKernel

import UnifiedApi.Application.Enrich
import UnifiedApi.Lib.ChildIo
import UnifiedApi.Lib.FormUrl

/-! # Running the script of an enricher or of an output

The dataset is written to the script's input on a task of its own while its
outputs are drained, so that a script that talks before it listens cannot block.
What comes of the run is what the script does with the dataset alone. -/

namespace UnifiedApi
open ChildIo Runs

/-- An exit status as its debug form. -/
def debugCode : Option Int → String
  | some code => "Some(" ++ toString code ++ ")"
  | none => "None"

def lossy (bytes : List UInt8) : String := String.ofList (FormUrl.fromUtf8Lossy bytes)

/-- The result of a run that is over: a script that stopped reading before all was
written is not a failure. -/
def enricherResult (parse : String → Except String Dataset) (scriptPath : String)
    (left : Output UInt8 × Fed) : EnricherResult :=
  if left.1.code ≠ some 0 then
    .error ("Enricher '" ++ scriptPath ++ "' failed with exit code " ++ debugCode left.1.code ++
      ": " ++ lossy left.1.err)
  else match left.2 with
    | .whole | .brokenPipe => match parse (lossy left.1.out) with
      | .ok answer => .ok answer
      | .error e => .error ("Failed to parse enricher output: " ++ e)

def outputResult (scriptPath : String) (left : Output UInt8 × Fed) : Except String String :=
  if left.1.code ≠ some 0 then
    .error ("Output script '" ++ scriptPath ++ "' failed with exit code " ++
      debugCode left.1.code ++ ": " ++ lossy left.1.err)
  else match left.2 with
    | .whole | .brokenPipe => .ok (lossy left.1.out)

/-- How the writing ended does not show. -/
theorem enricherResult_fed (parse : String → Except String Dataset) (scriptPath : String)
    (output : Output UInt8) (fed : Fed) :
    enricherResult parse scriptPath (output, fed) =
      enricherResult parse scriptPath (output, .whole) := by
  cases fed <;> rfl

theorem outputResult_fed (scriptPath : String) (output : Output UInt8) (fed : Fed) :
    outputResult scriptPath (output, fed) = outputResult scriptPath (output, .whole) := by
  cases fed <;> rfl

/-- **No script can block its run, and none can tell how it was run.** Whatever the
script and the dataset, whatever the pipes hold, and in whatever order the tasks
and the script take their steps: one of them can go on until the run is over; if
the script ends, given the dataset whole, then so does the run, in a bounded number
of steps; and its result is that of what the script leaves then. -/
theorem scriptRun_exact (parse : String → Except String Dataset) (scriptPath : String) {σ : Type}
    (script : Program UInt8 σ) (dataset : List UInt8) {capacity : Nat} (hcapacity : 0 < capacity)
    {labels : List Label} {s : State UInt8 σ}
    (hrun : exec (step script capacity) (begin script dataset) labels = some s) :
    (ended s = none → ∃ label s', step script capacity s label = some s') ∧
    (∀ left, ended s = some left →
      ∃ n, ((Alone.next script)^[n] (Alone.begin script dataset)).output = some left.1) ∧
    ∀ n output, ((Alone.next script)^[n] (Alone.begin script dataset)).output = some output →
      labels.length ≤ dataset.length + 1 + 2 * n ∧ ∀ left, ended s = some left →
        enricherResult parse scriptPath left = enricherResult parse scriptPath (output, .whole) ∧
        outputResult scriptPath left = outputResult scriptPath (output, .whole) := by
  obtain ⟨hmoves, hleaves, hbound⟩ := run_exact hcapacity hrun
  refine ⟨hmoves, fun left hended => hleaves left.1 left.2 hended, fun n output halone => ?_⟩
  have hexited := Alone.exited_of_output halone
  refine ⟨hbound n hexited, fun (left, fed) hended => ?_⟩
  obtain ⟨m, hleft⟩ := hleaves left fed hended
  rw [Alone.iterate_eq (Alone.exited_of_output hleft) hexited, halone] at hleft
  obtain rfl := Option.some.inj hleft
  exact ⟨enricherResult_fed parse scriptPath output fed, outputResult_fed scriptPath output fed⟩

/-- Logs twice before it reads, then reads all and answers. -/
def chatty : Program UInt8 Nat where
  start := 0
  wants
    | 0 | 1 => .write true 46
    | 2 => .read
    | 3 => .write false 33
    | _ => .exit (some 0)
  onRead line a := if a.isSome then line else line + 1
  onDone line := line + 1

/-- Pipes of one byte: the log is drained between the bytes of the dataset. -/
def chattyRun : List Label :=
  [.child, .feed, .drainErr, .child, .drainErr, .child, .feed, .child, .feed, .child, .child,
    .child, .drainOut]

-- nothing moves while the log is not drained
example : ∃ s, exec (step chatty 1) (begin chatty [1, 2]) [.child, .feed] = some s ∧
    step chatty 1 s .child = none ∧ step chatty 1 s .feed = none := ⟨_, rfl, rfl, rfl⟩

theorem chattyRun_exact : ∃ s left, exec (step chatty 1) (begin chatty [1, 2]) chattyRun = some s ∧
    ended s = some left ∧ outputResult "chatty.py" left = .ok "!" := by
  obtain ⟨s, left, hrun, hended⟩ : ∃ s left,
      exec (step chatty 1) (begin chatty [1, 2]) chattyRun = some s ∧ ended s = some left :=
    ⟨_, _, rfl, rfl⟩
  obtain ⟨_, _, halone⟩ := scriptRun_exact (fun _ => .error "") "chatty.py" chatty [1, 2]
    Nat.one_pos hrun
  refine ⟨s, left, hrun, hended, ?_⟩
  rw [((halone 7 ⟨some 0, [33], [46, 46]⟩ rfl).2 left hended).2]
  rfl

end UnifiedApi

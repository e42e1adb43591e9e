/-
**Runs that are rejected.**

A run is rejected if its options cannot be used or its documents cannot be read. Both are looked at before
anything is written, and so is all that can be wrong with the names of the output, but not before the scripts are
copied. So a run that is rejected leaves everything as it is, unless it copies scripts and rejects the names of
the output: then the copies are there.

* `ReadOnly`: computations that change nothing.
* `ReadOnly.readPair`: reading the documents changes nothing.
* `copyScripts_cases`, `finish_rejected`: the parts of a run that write.
* `carryOut_rejected`: what a run leaves behind that is rejected.
-/

import Relabel.Command.Program
import Relabel.Proofs.Run.Kept

namespace Relabel

variable {surroundings : Surroundings} {request : Request} {outcome : Outcome} {names : OutputNames}
  {report : Report} {failure : Failure} {world world' : World}

/-! ### Computations that only read -/

/-- A computation that changes no file and sends no request. -/
def ReadOnly {α : Type} (computation : Amid surroundings α) : Prop :=
  ∀ world, (computation world).2.disk = world.disk ∧ (computation world).2.exchanges = world.exchanges

namespace ReadOnly

variable {α β : Type}

theorem pure (a : α) : ReadOnly (Pure.pure a : Amid surroundings α) :=
  fun _ => ⟨rfl, rfl⟩

theorem bind {computation : Amid surroundings α} {next : α → Amid surroundings β} (first : ReadOnly computation)
    (others : ∀ a, ReadOnly (next a)) : ReadOnly (computation >>= next) := by
  intro world
  obtain ⟨disk, exchanges⟩ := first world
  obtain ⟨disk', exchanges'⟩ := others (computation world).1 (computation world).2
  exact ⟨disk'.trans disk, exchanges'.trans exchanges⟩

/-- A computation that stops at the first failure. -/
theorem run_bind {computation : ExceptT Failure (Amid surroundings) α} {next : α → ExceptT Failure (Amid surroundings) β}
    (first : ReadOnly computation.run) (others : ∀ a, ReadOnly (next a).run) : ReadOnly (computation >>= next).run := by
  rw [ExceptT.run_bind]
  refine bind first fun result => ?_
  cases result with
  | error failure => exact pure _
  | ok a => exact others a

theorem isFile (path : Text) : ReadOnly (Relabel.isFile path : Amid surroundings _) :=
  fun _ => ⟨rfl, rfl⟩

theorem readFile (path : Text) : ReadOnly (Relabel.readFile path : Amid surroundings _) := by
  intro world
  obtain ⟨exchanges, ⟨_, _, _, same⟩ | same⟩ := operate_cases (rfl (a := (Relabel.readFile path : Amid surroundings _) world))
  · exact ⟨same, exchanges⟩
  · exact ⟨(congrArg Prod.snd same).symm, exchanges⟩

theorem requireFile (path : Option Text) (role : Text) : ReadOnly (Relabel.requireFile path role : Amid surroundings _) := by
  unfold Relabel.requireFile
  cases path with
  | none => exact pure _
  | some path =>
    refine bind (isFile path) fun there => ?_
    cases there <;> exact pure _

theorem loadDocument [LegacyEncodings] (path : Text) (label : Option Text) :
    ReadOnly (Relabel.loadDocument path label : Amid surroundings _) := by
  unfold Relabel.loadDocument
  refine bind (readFile path) fun result => ?_
  cases result <;> exact pure _

/-- **Reading the documents** changes nothing. -/
theorem readPair [LegacyEncodings] (request : Request) : ReadOnly (Relabel.readPair request : Amid surroundings _) := by
  unfold Relabel.readPair
  refine run_bind (requireFile _ _) fun htmlPath => run_bind (requireFile _ _) fun cssPath => ?_
  exact run_bind (loadDocument _ _) fun html => run_bind (loadDocument _ _) fun css => pure _

end ReadOnly

/-! ### Parts of a run that write -/

/-- What making local copies comes to as a part of a run: nothing happens, or their directory cannot be made, or
the copies are there. -/
theorem copyScripts_cases [InternationalNames]
    (ran : (copyScripts (fun _ => surroundings.ask) request outcome : Amid surroundings _) world = (report, world')) :
    world' = world
      ∨ (∃ path error, report.result = .error (.makingScripts path error))
      ∨ request.copiesScripts = true ∧ ∃ base relocation exchanges,
          report.result = .ok (outcome.relocated relocation) ∧ world'.exchanges = world.exchanges ++ exchanges
            ∧ Localized base ⟨request.output, request.options.scriptsDirectory⟩ outcome.pair.html world.disk relocation
              exchanges world'.disk := by
  unfold copyScripts at ran
  cases asked : request.copiesScripts with
  | false =>
    rw [asked] at ran
    exact Or.inl (Prod.mk.inj ran).2.symm
  | true =>
    rw [asked, Bool.not_true, if_neg Bool.false_ne_true] at ran
    cases started : request.session with
    | error failure =>
      rw [started] at ran
      exact Or.inl (Prod.mk.inj ran).2.symm
    | ok session =>
      rw [started] at ran
      obtain ⟨result, last, copied, told⟩ := Amid.bind_eq ran
      obtain ⟨_, _, rfl, rfl⟩ | ⟨base, answer, _, rfl, localized⟩ := relocateBy_cases copied
      · exact Or.inl (Prod.mk.inj told).2.symm
      · right
        obtain ⟨_, error, rfl, _⟩ | ⟨relocation, exchanges, rfl, recorded, _, localized⟩ :=
          localizeScriptsBy_cases localized
        · obtain ⟨rfl, rfl⟩ := Prod.mk.inj told
          exact Or.inl ⟨_, error, rfl⟩
        · obtain ⟨rfl, rfl⟩ := Prod.mk.inj told
          exact Or.inr ⟨rfl, base, relocation, exchanges, rfl, recorded, localized⟩

/-- What a run leaves behind that is rejected: everything as it was, or copies of scripts beside which two files of
the output would have had the same name. -/
def LeftBehind (request : Request) (disk : Disk) (failure : Failure) (world : World) : Prop :=
  world.disk = disk ∧ world.exchanges = []
    ∨ request.copiesScripts = true ∧ (∃ name, failure = .nameClash name)
      ∧ ∃ relocation, StoredApart ⟨request.output, request.options.scriptsDirectory⟩ disk relocation world.exchanges
        world.disk

/-- **Copies and output** of a run that is rejected. -/
theorem finish_rejected [InternationalNames] (silent : world.exchanges = [])
    (ran : (finish (fun _ => surroundings.ask) request names outcome : Amid surroundings _) world = (report, world'))
    (failed : report.result = .error failure) (rejected : failure.kind ≠ .io) :
    LeftBehind request world.disk failure world' := by
  unfold finish at ran
  obtain ⟨first, middle, copied, ran⟩ := Amid.bind_eq ran
  have cases := copyScripts_cases copied
  cases result : first.result with
  | error failure' =>
    simp only [result] at ran
    obtain ⟨rfl, rfl⟩ := Prod.mk.inj ran
    obtain rfl := Except.error.inj failed
    obtain rfl | ⟨_, _, making⟩ | ⟨_, _, _, _, ended, _⟩ := cases
    · exact Or.inl ⟨rfl, silent⟩
    · exact absurd (Except.error.inj (result.symm.trans making) ▸ rfl) rejected
    · exact absurd (result.symm.trans ended) nofun
  | ok outcome' =>
    simp only [result] at ran
    obtain ⟨written, last, wrote, ran⟩ := Amid.bind_eq ran
    obtain ⟨rfl, rfl⟩ := Prod.mk.inj ran
    obtain ⟨quiet, output⟩ := writeOutput_written wrote
    have clashed : written.failure = some failure := by
      cases stopped : written.failure with
      | none =>
        rw [stopped] at failed
        exact absurd failed nofun
      | some failure' =>
        rw [stopped] at failed
        exact congrArg some (Except.error.inj failed)
    obtain ⟨name, rfl, same⟩ | refused := output.failure_cases clashed
    · unfold LeftBehind
      rw [same, quiet]
      obtain rfl | ⟨_, _, making⟩ | ⟨asked, base, relocation, exchanges, _, recorded, localized⟩ := cases
      · exact Or.inl ⟨rfl, silent⟩
      · exact absurd (result.symm.trans making) nofun
      · rw [silent, List.nil_append] at recorded
        exact Or.inr ⟨asked, ⟨name, rfl⟩, relocation, recorded ▸ localized.storedApart⟩
    · exact absurd refused rejected

/-! ### Runs -/

/-- **A run that is rejected** leaves everything as it is, unless it has copied scripts when it finds that two files
of the output would have the same name. It is assumed that removing an unfinished file is not refused. -/
theorem carryOut_rejected [InternationalNames] [LegacyEncodings] {disk : Disk}
    (ran : (carryOut (fun _ => surroundings.ask) request : Amid surroundings _) { disk } = (report, world))
    (failed : report.result = .error failure)
    (rejected : failure.kind = .invalidOption ∨ failure.kind = .malformedInput) :
    LeftBehind request disk failure world := by
  have notRefused : failure.kind ≠ .io := by
    rcases rejected with kind | kind <;> simp [kind]
  unfold carryOut at ran
  cases checked : request.options.check with
  | error failure' =>
    rw [checked] at ran
    obtain ⟨_, rfl⟩ := Prod.mk.inj ran
    exact Or.inl ⟨rfl, rfl⟩
  | ok _ =>
    rw [checked] at ran
    simp only [Amid.bind_apply] at ran
    rcases read : (readPair request : Amid surroundings _) { disk } with ⟨documents, middle⟩
    obtain ⟨same, silent⟩ : middle.disk = disk ∧ middle.exchanges = [] := by
      have quiet : ReadOnly (readPair request : Amid surroundings _) := .readPair request
      simpa only [read] using quiet { disk }
    rw [read] at ran
    cases documents with
    | error failure' =>
      obtain ⟨_, rfl⟩ := Prod.mk.inj ran
      exact Or.inl ⟨same, silent⟩
    | ok documents =>
      obtain ⟨names, pair⟩ := documents
      cases processed : processPair request.options pair with
      | error failure' =>
        simp only [processed] at ran
        obtain ⟨_, rfl⟩ := Prod.mk.inj ran
        exact Or.inl ⟨same, silent⟩
      | ok outcome =>
        simp only [processed, Amid.bind_apply] at ran
        rcases finished : (finish (fun _ => surroundings.ask) request names outcome : Amid surroundings _) middle
          with ⟨last, world'⟩
        rw [finished] at ran
        obtain ⟨rfl, rfl⟩ := Prod.mk.inj ran
        have left := finish_rejected silent finished failed notRefused
        exact same ▸ left

/-- A request for documents of one name in two directories. -/
def clashingRequest (copiesScripts : Bool) : Request where
  options := {}
  html := some "a/page"
  css := some "b/page"
  output := standardOutput
  copiesScripts := copiesScripts
  timeout := Session.standardTimeout
  userAgent := none

/-- The disk with these documents, one of which has a script. -/
def clashingDisk : Disk :=
  (({} : Disk).place "a/page" (.file (Utf8.encode "<script src='https://a.org/a.js'></script>"))).place "b/page" (.file [])

/-- What comes of this request. -/
def clashingRun (copiesScripts : Bool) : Report × World :=
  (carryOut (fun _ => calmSurroundings.ask) (clashingRequest copiesScripts) : Amid calmSurroundings _)
    { disk := clashingDisk }

theorem clashingRun_error (copiesScripts : Bool) :
    (clashingRun copiesScripts).1.result = .error (.nameClash "page") := by
  have results : ∀ copiesScripts, (clashingRun copiesScripts).1.result.map (fun _ => ()) = .error (.nameClash "page") := by
    decide +kernel
  have failed := results copiesScripts
  cases result : (clashingRun copiesScripts).1.result with
  | error failure =>
    rw [result] at failed
    exact congrArg Except.error (Except.error.inj failed)
  | ok outcome =>
    rw [result] at failed
    exact absurd failed nofun

/-- If no copies are asked for, everything is left as it is. -/
theorem carryOut_rejected_clash :
    (clashingRun false).1.result = .error (.nameClash "page") ∧ (Failure.nameClash "page").kind = .invalidOption
      ∧ LeftBehind (clashingRequest false) clashingDisk (.nameClash "page") (clashingRun false).2
      ∧ (clashingRun false).2.disk = clashingDisk := by
  have failed := clashingRun_error false
  have ran : clashingRun false = ((clashingRun false).1, (clashingRun false).2) := Prod.mk.eta.symm
  have left := carryOut_rejected ran failed (Or.inl rfl)
  refine ⟨failed, rfl, left, ?_⟩
  obtain ⟨same, _⟩ | ⟨asked, _⟩ := left
  · exact same
  · exact absurd asked nofun

/-- **Something is written** by this run if copies are asked for, although it is rejected. -/
theorem rejected_run_writes :
    (clashingRun true).1.result = .error (.nameClash "page") ∧ (Failure.nameClash "page").kind = .invalidOption
      ∧ clashingDisk.at? ["js", "out"] = none ∧ (clashingRun true).2.disk.at? ["js", "out"] = some .directory
      ∧ (clashingRun true).2.disk.read "out/js/a.js" = .ok [59] := by
  refine ⟨clashingRun_error true, rfl, ?_⟩
  decide +kernel

end Relabel

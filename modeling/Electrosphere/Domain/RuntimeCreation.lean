import Electrosphere.Domain.GcSafety
import Electrosphere.Domain.SandboxService
import Electrosphere.Storage.ExtractionRuns

/-!
# What a creation that fails leaves behind

`createTurnRuntime` makes a directory, extracts a tree into it, inserts a row
and has the backend create the runtime.  The handler that cleans up begins
with the last of these.
-/

namespace Electrosphere

open Foundation FileSystem Workspace Cfs

/-! ## Creating a runtime -/

/-- The name of an instance's directory. -/
def instanceName (id : InstanceId) : Text := (toString id).toList

/-- What the layers below answer to a creation. -/
structure CreationEnvironment where
  process : Process
  /-- The time that `utimes` stores for a number of seconds. -/
  stores : ℚ → Timestamp
  remnants : Remnants
  /-- The service's `instanceRoot`, a real path. -/
  instanceRoot : List Text
  /-- The identifier that names the staging directory. -/
  uuid : Text
  validStaging : ValidText (".staging-".toList ++ uuid)
  preflight : Except Thrown Probe
  readObject : String → Except Thrown Bytes
  create : Except Thrown String

namespace CreationEnvironment

variable (environment : CreationEnvironment)

def directory (id : InstanceId) : List Text :=
  environment.instanceRoot ++ [instanceName id]

def extractor (id : InstanceId) : Extractor where
  process := environment.process
  stores := environment.stores
  remnants := environment.remnants
  parent := environment.directory id
  name := "workspace".toList
  uuid := environment.uuid
  validName := by
    have valid : ValidName (Utf8.encode "workspace".toList) := by decide
    exact valid
  validStaging := environment.validStaging
  different := by simp

/-- `mkdir` with `recursive`. -/
def makeDirectory (id : InstanceId) : Disk Unit :=
  (environment.extractor id).makeDirectories (environment.directory id) 0o700 []
    (environment.directory id)

def removeDirectory (id : InstanceId) : Disk Unit :=
  (environment.extractor id).remove (environment.directory id)

end CreationEnvironment

/-- `tree.path`, once the lookups have succeeded. -/
def archivePath (db : Database) (input : RuntimeInput) : String :=
  (((db.getCommit input.baseCommit).bind fun commit =>
    db.getTreeObject commit.treeDigest).map TreeObjectRow.path).getD ""

def CreationEnvironment.materialize (environment : CreationEnvironment)
    (db : Database) (input : RuntimeInput) : Disk Unit :=
  (environment.extractor input.instanceId).materializeCfs
    (environment.readObject (archivePath db input))

/-- How a creation ends. -/
structure Creation where
  answer : Except Thrown Unit
  db : Database
  fs : FileSystem

namespace CreationEnvironment

variable (environment : CreationEnvironment) (deployment : Deployment)
  (db : Database) (fs : FileSystem) (input : RuntimeInput)

/-- The `try` block and its handler. -/
def start : Creation :=
  match environment.create with
  | .ok opaqueId =>
      let ready := recordHandle db input opaqueId
      { answer :=
          if ready.hasInstance input.instanceId then .ok ()
          else .error (.coded .backendError
            "Runtime record disappeared after creation")
        db := ready, fs }
  | .error error =>
      let failed := recordCreateFailure db input.instanceId error
      match environment.removeDirectory input.instanceId fs with
      | (.ok (), fs) => { answer := .error error, db := failed, fs }
      | (.error removal, fs) => { answer := .error removal, db := failed, fs }

/-- Everything from the extraction on. -/
def fill : Creation :=
  match environment.materialize db input fs with
  | (.error error, fs) => { answer := .error error, db, fs }
  | (.ok (), fs) =>
  match db.createInstance input.instanceId
      (provisioningRow deployment input) with
  | .error error => { answer := .error error, db, fs }
  | .ok created => environment.start created fs input

def createTurnRuntime : Creation :=
  match checkRuntimeInput db input with
  | .error error => { answer := .error error, db, fs }
  | .ok () =>
  match checkProbe input.backend environment.preflight with
  | .error error => { answer := .error error, db, fs }
  | .ok () =>
  match environment.makeDirectory input.instanceId fs with
  | (.error error, fs) => { answer := .error error, db, fs }
  | (.ok (), fs) => environment.fill deployment db fs input

end CreationEnvironment

/-! ## What is left -/

/-- The row of a runtime through which `gc` removes its directory. -/
def Database.LeftToGc (deployment : Deployment) (db : Database)
    (id : InstanceId) : Prop :=
  ∃ row, db.getInstance id = some row ∧ row.state = .failed ∧
    ∀ objects, GcAction.removeDirectory (deployment.instanceRoot id) ∈
      gcActions { db, objects }

structure NoResidue (environment : CreationEnvironment)
    (deployment : Deployment) (start : FileSystem) (id : InstanceId)
    (creation : Creation) : Prop where
  cleared :
    creation.fs.node (encodePath (environment.directory id)) = none ∨
      creation.db.LeftToGc deployment id
  terminal : ∀ row, creation.db.getInstance id = some row →
    row.state.dead = true
  untouched : Untouched start (encodePath environment.instanceRoot)
    (Utf8.encode (instanceName id)) creation.fs

/-! ## Files -/

theorem validText_instanceName (id : InstanceId) :
    ValidText (instanceName id) := by
  have isName : instanceName id = Nat.toDigits 10 id := by
    rw [instanceName, Nat.toString_eq_ofList_toDigits, String.toList_ofList]
  have digits : ∀ letter ∈ instanceName id, letter.isDigit = true := by
    intro letter member
    rw [isName] at member
    exact Nat.isDigit_of_mem_toDigits (by decide) (by decide) member
  apply ValidText.of_parts
  · rw [isName]
    exact Nat.toDigits_ne_nil
  · intro same
    exact absurd (digits '.' (by simp [same])) (by decide)
  · intro same
    exact absurd (digits '.' (by simp [same])) (by decide)
  · intro member
    exact absurd (digits _ member) (by decide)
  · intro member
    exact absurd (digits _ member) (by decide)

namespace CreationEnvironment

section Files

variable {environment : CreationEnvironment} {id : InstanceId}
  {start : FileSystem}

theorem encodePath_directory :
    encodePath (environment.directory id) =
      encodePath environment.instanceRoot ++ [Utf8.encode (instanceName id)] :=
  encodePath_append _ _

theorem ensures_makeDirectory
    (rooted : start.isDirectory (encodePath environment.instanceRoot) = true)
    (vacant : start.node (encodePath (environment.directory id)) = none) :
    Effect.Ensures (fun fs => fs = start) (environment.makeDirectory id)
      (fun _ fs => Untouched start (encodePath environment.instanceRoot)
          (Utf8.encode (instanceName id)) fs ∧
        fs.isDirectory (encodePath (environment.directory id)) = true)
      fun _ fs => fs = start := by
  rw [makeDirectory, directory, Extractor.makeDirectories_append]
  apply Effect.ensures_bind fun _ fs => fs = start
  · apply Extractor.ensures_makeAbove
    rintro fs rfl
    rw [List.nil_append]
    exact rooted
  intro _
  rw [Extractor.makeDirectories]
  apply Effect.ensures_bind fun _ fs =>
    Untouched start (encodePath environment.instanceRoot)
        (Utf8.encode (instanceName id)) fs ∧
      fs.isDirectory (encodePath (environment.directory id)) = true
  · apply Extractor.ensures_syscall
    · rintro fs rfl after ensured
      rw [List.nil_append, ← directory, encodePath_directory] at ensured
      rw [encodePath_directory] at vacant ⊢
      rw [Extractor.ensureDirectory] at ensured
      split at ensured
      · next made isMade =>
          cases ensured
          obtain ⟨place, resolved, created⟩ := bind_eq_ok_iff.mp isMade
          rw [eq_of_resolve_concat rooted (validText_instanceName id)
            resolved] at created
          have created := created_of_create created
          refine ⟨.created created, ?_⟩
          rw [isDirectory, created.node, if_pos rfl]
          rfl
      · split at ensured
        · next place resolved =>
            split at ensured
            · next isDirectory =>
                have notLink : fs.isSymlink (encodePath
                    environment.instanceRoot ++
                    [Utf8.encode (instanceName id)]) = false := by
                  rw [isSymlink, vacant]
                rw [eq_of_resolve_last rooted (validText_instanceName id)
                  (fun _ => notLink) resolved, FileSystem.isDirectory,
                  vacant] at isDirectory
                cases isDirectory
            · split at ensured <;> cases ensured
        · cases ensured
      · cases ensured
    · exact fun fs same => same
  · intro _
    exact Effect.ensures_pure fun fs both => both

theorem ensures_removeDirectory
    (rooted : start.isDirectory (encodePath environment.instanceRoot) = true) :
    Effect.Ensures
      (Untouched start (encodePath environment.instanceRoot)
        (Utf8.encode (instanceName id)))
      (environment.removeDirectory id)
      (fun _ => Untouched start (encodePath environment.instanceRoot)
        (Utf8.encode (instanceName id)))
      fun _ => Untouched start (encodePath environment.instanceRoot)
        (Utf8.encode (instanceName id)) := by
  intro fs untouched
  have directory := untouched.isDirectory rooted
  have valid := validText_instanceName id
  rw [removeDirectory, Extractor.remove, encodePath_directory]
  split
  · next cleared removed =>
      constructor
      · intro _ later same
        cases same
        rcases removeTree_eq_ok directory valid removed with rfl | rfl
        · exact untouched
        · exact untouched.removed.touched rooted _
      · intro error later same
        cases same
  · next errno place failed =>
      constructor
      · intro _ later same
        cases same
      · intro error later same
        cases same
        rcases removeTree_eq_error directory valid failed with rfl | rfl
        · exact untouched
        · exact untouched.left _

end Files

end CreationEnvironment

/-! ## Every way to fail -/

/-- The checks have passed and the directory has been made. -/
structure Prepared (environment : CreationEnvironment) (db : Database)
    (fs : FileSystem) (input : RuntimeInput) (made : FileSystem) : Prop where
  checked : checkRuntimeInput db input = .ok ()
  available : checkProbe input.backend environment.preflight = .ok ()
  directory : environment.makeDirectory input.instanceId fs = (.ok (), made)

/-- Once the directory has been made, the archive is extracted and the row is
inserted. -/
def Installs (environment : CreationEnvironment) (deployment : Deployment)
    (db : Database) (fs : FileSystem) (input : RuntimeInput) : Prop :=
  ∀ made, Prepared environment db fs input made →
    (∃ extracted, environment.materialize db input made = (.ok (), extracted)) ∧
      db.instanceReferencesExist (provisioningRow deployment input) = true

section Creations

variable {environment : CreationEnvironment} {deployment : Deployment}
  {db : Database} {fs made extracted : FileSystem} {input : RuntimeInput}

theorem createInstance_eq_ok_iff {id : InstanceId} {row : InstanceRow}
    (fresh : db.hasInstance id = false) :
    (∃ created, db.createInstance id row = .ok created) ↔
      db.instanceReferencesExist row = true := by
  rw [Database.createInstance, if_neg (by simp [fresh])]
  by_cases exist : db.instanceReferencesExist row = true
  · rw [if_neg (by simp [exist])]
    simp [exist]
  · rw [if_pos (by simpa using exist)]
    simp [exist]

theorem getInstance_of_fresh {id : InstanceId}
    (fresh : db.hasInstance id = false) : db.getInstance id = none := by
  rw [Database.hasInstance] at fresh
  rw [Database.getInstance]
  simpa using fresh

theorem getInstance_of_created {id : InstanceId} {row : InstanceRow}
    {created : Database} (inserted : db.createInstance id row = .ok created) :
    created.getInstance id = some row := by
  rw [Database.createInstance] at inserted
  split at inserted
  · cases inserted
  · split at inserted
    · cases inserted
    · cases inserted
      exact AList.lookup_insert _

/-- The row that the handler leaves. -/
theorem getInstance_recordCreateFailure {created : Database} {error : Thrown}
    (inserted : db.createInstance input.instanceId
      (provisioningRow deployment input) = .ok created) :
    (recordCreateFailure created input.instanceId error).getInstance
      input.instanceId = some { provisioningRow deployment input with
        state := .failed, lastError := some error.message } := by
  have found := getInstance_of_created inserted
  rw [Database.getInstance] at found
  rw [recordCreateFailure, Database.updateInstance, Database.getInstance,
    AList.lookup_modify_self, found]
  rfl

theorem leftToGc_recordCreateFailure {created : Database} {error : Thrown}
    (inserted : db.createInstance input.instanceId
      (provisioningRow deployment input) = .ok created) :
    (recordCreateFailure created input.instanceId error).LeftToGc deployment
      input.instanceId := by
  have found : (recordCreateFailure created input.instanceId
      error).getInstance input.instanceId = some _ :=
    getInstance_recordCreateFailure inserted
  refine ⟨_, found, rfl, ?_⟩
  intro objects
  rw [gcActions]
  apply List.mem_append_right
  rw [← dirname_workspacePath]
  exact List.mem_map.mpr ⟨(input.instanceId, _),
    AList.mem_select.mpr ⟨found, rfl⟩, rfl⟩

/-- A creation that stops between the two leaves its directory and no row. -/
theorem not_noResidue_of_stopped {creation : Creation}
    (directory : creation.fs.isDirectory
      (encodePath (environment.directory input.instanceId)) = true)
    (absent : creation.db.getInstance input.instanceId = none) :
    ¬ NoResidue environment deployment fs input.instanceId creation := by
  intro residue
  rcases residue.cleared with gone | ⟨row, isRow, -⟩
  · rw [isDirectory, gone] at directory
    cases directory
  · rw [absent] at isRow
    cases isRow

theorem createTurnRuntime_of_prepared
    (prepared : Prepared environment db fs input made) :
    environment.createTurnRuntime deployment db fs input =
      environment.fill deployment db made input := by
  rw [CreationEnvironment.createTurnRuntime, prepared.checked]
  simp only [prepared.available, prepared.directory]

/-- The row is inserted, so its failure is told and its directory is cleared
or will be. -/
theorem noResidue_start {created : Database} {error : Thrown}
    (rooted : fs.isDirectory (encodePath environment.instanceRoot) = true)
    (inserted : db.createInstance input.instanceId
      (provisioningRow deployment input) = .ok created)
    (untouched : Untouched fs (encodePath environment.instanceRoot)
      (Utf8.encode (instanceName input.instanceId)) extracted)
    (failed : (environment.start created extracted input).answer =
      .error error) :
    NoResidue environment deployment fs input.instanceId
      (environment.start created extracted input) := by
  rw [CreationEnvironment.start] at failed ⊢
  cases answer : environment.create with
  | ok opaqueId =>
      rw [answer] at failed
      have row := getInstance_of_created inserted
      have isThere : (recordHandle created input opaqueId).hasInstance
          input.instanceId = true := by
        rw [Database.getInstance] at row
        rw [recordHandle, Database.updateInstance, Database.hasInstance,
          AList.lookup_modify_self, row]
        rfl
      simp only [isThere, if_true] at failed
      cases failed
  | error thrown =>
      obtain ⟨cleared, kept⟩ :=
        CreationEnvironment.ensures_removeDirectory rooted extracted untouched
      have terminal : ∀ row, (recordCreateFailure created input.instanceId
          thrown).getInstance input.instanceId = some row →
          row.state.dead = true := by
        intro row found
        rw [getInstance_recordCreateFailure inserted] at found
        cases found
        rfl
      have leftToGc : (recordCreateFailure created input.instanceId
          thrown).LeftToGc deployment input.instanceId :=
        leftToGc_recordCreateFailure inserted
      cases removal : environment.removeDirectory input.instanceId extracted
        with
      | mk outcome last =>
          cases outcome with
          | ok done =>
              exact ⟨.inr leftToGc, terminal, cleared _ last removal⟩
          | error removal =>
              exact ⟨.inr leftToGc, terminal, kept _ last removal⟩

/-- Nothing has been made when a creation is refused. -/
theorem noResidue_of_unchanged {creation : Creation}
    (fresh : db.hasInstance input.instanceId = false)
    (vacant : fs.node (encodePath (environment.directory input.instanceId)) =
      none)
    (sameDb : creation.db = db) (sameFs : creation.fs = fs) :
    NoResidue environment deployment fs input.instanceId creation := by
  constructor
  · left
    rw [sameFs]
    exact vacant
  · intro row found
    rw [sameDb, getInstance_of_fresh fresh] at found
    cases found
  · rw [sameFs]
    exact .refl

theorem confined_materialize
    (directory : made.isDirectory
      (encodePath (environment.directory input.instanceId)) = true) :
    (∀ value last, environment.materialize db input made = (.ok value, last) →
      Confined made (encodePath (environment.directory input.instanceId)) last) ∧
    ∀ error last, environment.materialize db input made =
      (.error error, last) →
      Confined made (encodePath (environment.directory input.instanceId)) last :=
  Extractor.ensures_materializeCfs made (.refl directory)

/-- Between the directory and the row a failure is cleaned up by nothing. -/
theorem installs_of_noResidue
    (fresh : db.hasInstance input.instanceId = false)
    (directory : made.isDirectory
      (encodePath (environment.directory input.instanceId)) = true)
    (noResidue : ∀ error,
      (environment.fill deployment db made input).answer = .error error →
        NoResidue environment deployment fs input.instanceId
          (environment.fill deployment db made input)) :
    (∃ extracted,
      environment.materialize db input made = (.ok (), extracted)) ∧
      db.instanceReferencesExist (provisioningRow deployment input) = true := by
  have absent := getInstance_of_fresh fresh
  obtain ⟨isDone, isFailed⟩ := confined_materialize directory
  cases run : environment.materialize db input made with
  | mk outcome last =>
      cases outcome with
      | error error =>
          exfalso
          have isFill : environment.fill deployment db made input =
              { answer := .error error, db, fs := last } := by
            rw [CreationEnvironment.fill, run]
          rw [isFill] at noResidue
          refine not_noResidue_of_stopped ?_ absent (noResidue error rfl)
          exact (isFailed error last run).directory
      | ok done =>
          refine ⟨⟨last, rfl⟩, ?_⟩
          rw [← createInstance_eq_ok_iff fresh]
          cases inserted : db.createInstance input.instanceId
              (provisioningRow deployment input) with
          | ok created => exact ⟨created, rfl⟩
          | error error =>
              exfalso
              have isFill : environment.fill deployment db made input =
                  { answer := .error error, db, fs := last } := by
                rw [CreationEnvironment.fill, run]
                simp only [inserted]
              rw [isFill] at noResidue
              refine not_noResidue_of_stopped ?_ absent (noResidue error rfl)
              exact (isDone done last run).directory

/-- A creation that fails leaves nothing behind exactly when, once it has made
its directory, it also extracts the archive and inserts the row. -/
theorem CreationEnvironment.noResidue_iff
    (fresh : db.hasInstance input.instanceId = false)
    (rooted : fs.isDirectory (encodePath environment.instanceRoot) = true)
    (vacant : fs.node (encodePath (environment.directory input.instanceId)) =
      none) :
    (∀ error, (environment.createTurnRuntime deployment db fs input).answer =
        .error error →
      NoResidue environment deployment fs input.instanceId
        (environment.createTurnRuntime deployment db fs input)) ↔
      Installs environment deployment db fs input := by
  obtain ⟨isMade, notMade⟩ :=
    CreationEnvironment.ensures_makeDirectory rooted vacant fs rfl
  constructor
  · intro noResidue made prepared
    rw [createTurnRuntime_of_prepared prepared] at noResidue
    obtain ⟨-, directory⟩ := isMade _ made prepared.directory
    exact installs_of_noResidue fresh directory noResidue
  · intro installs error failed
    rw [CreationEnvironment.createTurnRuntime] at failed ⊢
    cases checked : checkRuntimeInput db input with
    | error error => exact noResidue_of_unchanged fresh vacant rfl rfl
    | ok passed =>
    cases available : checkProbe input.backend environment.preflight with
    | error error => exact noResidue_of_unchanged fresh vacant rfl rfl
    | ok passed =>
    cases directory : environment.makeDirectory input.instanceId fs with
    | mk outcome made =>
    cases outcome with
    | error error =>
        exact noResidue_of_unchanged fresh vacant rfl (notMade _ made directory)
    | ok done =>
        obtain ⟨untouched, isDirectory⟩ := isMade _ made directory
        obtain ⟨⟨extracted, run⟩, exist⟩ :=
          installs made ⟨checked, available, directory⟩
        obtain ⟨created, inserted⟩ := (createInstance_eq_ok_iff fresh).mpr exist
        have isFill : environment.fill deployment db made input =
            environment.start created extracted input := by
          rw [CreationEnvironment.fill, run]
          simp only [inserted]
        simp only [checked, available, directory, isFill] at failed ⊢
        have confined := (confined_materialize isDirectory).1 _ extracted run
        rw [CreationEnvironment.encodePath_directory] at confined
        exact noResidue_start rooted inserted (untouched.confined confined)
          failed

end Creations

/-! ## A damaged archive -/

/-- A file without the magic takes the place of the archive. -/
private def damagedCreation : CreationEnvironment where
  process := { privileged := true, now := .whole 1, refuses := fun _ => false }
  stores _ := .whole 2
  remnants := .all
  instanceRoot := []
  uuid := "draft".toList
  validStaging := by
    have valid : ValidName (Utf8.encode (".staging-".toList ++
      "draft".toList)) := by decide
    exact valid
  preflight := .ok .available
  readObject _ := .ok []
  create := .ok "container"

private def committedTree : Database :=
  { Database.empty with
    commits := (∅ : Table Digest CommitRow).insert emptyContractDigest
      { treeDigest := emptyContractDigest
        contractDigest := emptyContractDigest
        parentId := none }
    treeObjects := (∅ : Table Digest TreeObjectRow).insert emptyContractDigest
      { path := "tree", sizeBytes := 0 } }

private def instantCreation : RuntimeInput where
  instanceId := 5
  kind := .instant
  baseCommit := emptyContractDigest
  workspaceId := none
  backend := .docker
  network := .none
  resourceProfile := .default

private theorem damagedCreation_vacant :
    (FileSystem.bare 0o755 (.whole 0)).node (encodePath
      (damagedCreation.directory instantCreation.instanceId)) = none := by
  have named : encodePath (damagedCreation.directory
      instantCreation.instanceId) ≠ [] := by
    rw [CreationEnvironment.encodePath_directory]
    exact append_singleton_ne_nil
  simp only [FileSystem.bare, named, if_false]

private theorem damagedCreation_prepared :
    ∃ made, Prepared damagedCreation committedTree
      (FileSystem.bare 0o755 (.whole 0)) instantCreation made := by
  let fs := FileSystem.bare 0o755 (.whole 0)
  have valid : ValidName (Utf8.encode (instanceName 5)) :=
    validText_instanceName 5
  have entered : damagedCreation.process.mayEnter fs [] = true := rfl
  have stays : false = false ∨
      fs.isSymlink ([] ++ [Utf8.encode (instanceName 5)]) = false := .inl rfl
  have resolved : FileSystem.resolve damagedCreation.process fs false maxLinks
      [] [Utf8.encode (instanceName 5)] =
        .ok ([] ++ [Utf8.encode (instanceName 5)]) :=
    FileSystem.resolve_last valid entered stays
  obtain ⟨made, isMade⟩ : ∃ made, create damagedCreation.process fs
      [Utf8.encode (instanceName 5)]
      (.directory 0o700 damagedCreation.process.now) [] = .ok made := by
    apply create_eq_ok damagedCreation_vacant rfl rfl rfl valid
    trivial
  refine ⟨made, by decide, by decide, ?_⟩
  have isNew : mkdir damagedCreation.process fs []
      (encodePath ([] ++ [instanceName 5])) 0o700 = .ok made :=
    bind_eq_ok_iff.mpr ⟨_, resolved, isMade⟩
  have ensured : (damagedCreation.extractor 5).ensureDirectory fs
      (encodePath ([] ++ [instanceName 5]))
      (encodePath ([] ++ [instanceName 5])) 0o700 = .ok made :=
    Extractor.ensureDirectory_of_made isNew
  apply Effect.run_bind_eq_ok_iff.mpr
  refine ⟨(), made, ?_, rfl⟩
  apply Effect.run_change_eq_ok_iff.mpr
  exact congrArg (Except.mapError _) ensured

theorem damaged_archive_leaves_directory :
    ¬ ∀ error, (damagedCreation.createTurnRuntime .transparent committedTree
        (FileSystem.bare 0o755 (.whole 0)) instantCreation).answer =
          .error error →
      NoResidue damagedCreation .transparent (FileSystem.bare 0o755 (.whole 0))
        instantCreation.instanceId
        (damagedCreation.createTurnRuntime .transparent committedTree
          (FileSystem.bare 0o755 (.whole 0)) instantCreation) := by
  intro noResidue
  obtain ⟨made, prepared⟩ := damagedCreation_prepared
  rw [createTurnRuntime_of_prepared prepared] at noResidue
  have rooted : (FileSystem.bare 0o755 (.whole 0)).isDirectory
      (encodePath damagedCreation.instanceRoot) = true := rfl
  obtain ⟨-, directory⟩ := (CreationEnvironment.ensures_makeDirectory rooted
    damagedCreation_vacant _ rfl).1 _ made prepared.directory
  obtain ⟨⟨extracted, run⟩, -⟩ :=
    installs_of_noResidue rfl directory noResidue
  exact Extractor.not_ok_of_magic (by decide) run

theorem noResidue_iff_damaged :
    (∀ error, (damagedCreation.createTurnRuntime .transparent committedTree
        (FileSystem.bare 0o755 (.whole 0)) instantCreation).answer =
          .error error →
      NoResidue damagedCreation .transparent (FileSystem.bare 0o755 (.whole 0))
        instantCreation.instanceId
        (damagedCreation.createTurnRuntime .transparent committedTree
          (FileSystem.bare 0o755 (.whole 0)) instantCreation)) ↔
      Installs damagedCreation .transparent committedTree
        (FileSystem.bare 0o755 (.whole 0)) instantCreation :=
  CreationEnvironment.noResidue_iff rfl rfl damagedCreation_vacant

end Electrosphere

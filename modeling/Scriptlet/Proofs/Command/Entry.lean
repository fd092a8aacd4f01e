import Scriptlet.Proofs.Command.Stages
import Scriptlet.Proofs.Files.Places
import Scriptlet.Proofs.Manifest.RoundTrip

/-! # Entries of manifests

A source command without a path reads the entry of the manifest. Its path leads to the
place that the entry denotes from the directory of the manifest
(`Manifest.entryPlace`). One such place is special: the path of a file in the working
directory that is called like the standard input is the path of the standard input, however
the entry is spelled (`invoke_entry`).
-/

namespace Scriptlet

open Scriptlet.Path (isAbsolute parts)

namespace Manifest

variable {manifest : Manifest} {files : FileTree} {path : String} {inside place target : Place}

/-- Where the names of an entry start, for a manifest in a directory. -/
def entryOrigin (manifest : Manifest) (inside : Place) : Place :=
  if isAbsolute manifest.entry then ["/"] else inside

/-- The place that the entry of a manifest in a directory denotes. -/
def entryPlace (manifest : Manifest) (inside : Place) : Place :=
  (manifest.entryOrigin inside).walk (parts manifest.entry)

/-- The path of an entry that is given is not empty. -/
theorem entryPath_ne_empty (given : manifest.entry ≠ "") : manifest.entryPath path ≠ "" := by
  unfold entryPath
  split
  · exact given
  · exact Path.clean_ne_empty _

/-- The path of an entry is that of the standard input if it denotes the file of that name
in the working directory. -/
theorem entryPath_eq_input_iff
    (walked : files.follow (.origin path) (parts path).dropLast = .ok inside) :
    manifest.entryPath path = SourceFile.inputPath ↔
      manifest.entryPlace inside = [SourceFile.inputPath] := by
  unfold entryPath entryPlace entryOrigin
  split
  · rename_i absolute
    have base : ["/"] = Place.origin manifest.entry := (if_pos absolute).symm
    refine iff_of_false ?_ ?_
    · intro same
      rw [same] at absolute
      exact absurd absolute (by decide)
    · rw [base, Place.walk_parts, ← base]
      intro same
      exact absurd (List.cons.inj same).1 (by decide)
  · rw [FileTree.eq_walk_of_follow walked]
    exact Place.within_eq_iff path manifest.entry (by decide) (by decide)

/-- The path of an entry leads to the place that it denotes, if to any. -/
theorem eq_entryPlace_of_leads
    (walked : files.follow (.origin path) (parts path).dropLast = .ok inside)
    (leads : files.Leads (manifest.entryPath path) place) : place = manifest.entryPlace inside := by
  unfold entryPath at leads
  unfold entryPlace entryOrigin
  split at leads
  · rename_i absolute
    rw [FileTree.eq_walk_of_follow leads.2, if_pos absolute, Place.origin, if_pos absolute]
  · rename_i relative
    rw [if_neg relative]
    exact leads.eq_walk_of_within walked

/-- The path of an entry leads there if the names of the entry can be followed. -/
theorem leads_entryPath (given : manifest.entry ≠ "")
    (walked : files.follow (.origin path) (parts path).dropLast = .ok inside)
    (stands : files.entry? inside = some .directory)
    (below : files.follow (manifest.entryOrigin inside) (parts manifest.entry) = .ok place) :
    files.Leads (manifest.entryPath path) place := by
  unfold entryPath
  unfold entryOrigin at below
  split
  · rename_i absolute
    rw [if_pos absolute] at below
    refine ⟨given, ?_⟩
    rw [Place.origin, if_pos absolute]
    exact below
  · rename_i relative
    rw [if_neg relative] at below
    exact FileTree.leads_within walked stands below

end Manifest

namespace SourceFile

variable {files : FileTree} {input other : Input} {path : String} {place : Place} {text : Bytes}

private theorem load_of_file (named : path ≠ inputPath) (leads : files.Leads path place)
    (stands : files.entry? place = some (.file text)) :
    load files input path = .ok ⟨text, path⟩ := by
  rw [load, if_neg named, FileTree.read_eq_ok_iff.mpr ⟨place, leads, stands⟩]

private theorem exists_of_load {source : SourceFile} (named : path ≠ inputPath)
    (loaded : load files input path = .ok source) :
    ∃ place, files.Leads path place ∧ files.entry? place = some (.file source.text) := by
  rw [load, if_neg named] at loaded
  split at loaded
  · rename_i content read
    cases loaded
    exact FileTree.read_eq_ok_iff.mp read
  · cases loaded

private theorem load_congr (named : path ≠ inputPath) : load files input path = load files other path := by
  rw [load, load, if_neg named, if_neg named]

end SourceFile

namespace Invocation

variable {files : FileTree} {input other : Input} {options : Options} {command : SourceCommand}
  {path place : String} {manifest : Manifest} {content : Bytes}

private theorem findManifest_of_read (held : files.read path = .ok content)
    (read : Manifest.read content = .ok manifest) :
    findManifest files path = .ok (some manifest) := by
  rw [findManifest, if_pos (FileTree.isPresent_of_read held), held]
  simp only [read]

/-- A manifest that was written is found. -/
theorem findManifest_of_leads {spot : Place} (leads : files.Leads path spot)
    (held : files.entry? spot = some (.file manifest.write)) :
    findManifest files path = .ok (some manifest) :=
  findManifest_of_read (FileTree.read_eq_ok_iff.mpr ⟨spot, leads, held⟩) manifest.read_write

private theorem exists_read_of_findManifest (found : findManifest files path = .ok (some manifest)) :
    ∃ content, files.read path = .ok content ∧ Manifest.read content = .ok manifest := by
  unfold findManifest at found
  split at found
  · split at found
    · cases found
    · rename_i content held
      split at found
      · cases found
      · rename_i read
        cases found
        exact ⟨content, held, read⟩
  · cases found

/-- If neither the options nor the manifest give a log level, it is the usual one. -/
theorem level_of_findManifest (found : findManifest files options.manifest = .ok (some manifest))
    (unset : options.logLevel = "") (silent : manifest.logLevel = "") :
    level files options = .ok .notice := by
  have named : levelName files options = .ok "NOTICE" := by
    rw [levelName, if_neg (not_not_intro unset), found]
    simp [bind, Except.bind, silent, pure, Except.pure]
  rw [level, named]
  rfl

/-- A path that is given is the path of the source. -/
theorem sourcePath_of_ne (given : path ≠ "") : sourcePath files options path = .ok path := by
  rw [sourcePath, if_pos given]
  rfl

/-- Without a path the source is the entry of the manifest. -/
theorem sourcePath_of_findManifest
    (found : findManifest files options.manifest = .ok (some manifest))
    (given : manifest.entry ≠ "") :
    sourcePath files options "" = .ok (manifest.entryPath options.manifest) := by
  rw [sourcePath, if_neg (by simp), found]
  simp [bind, Except.bind, given, pure, Except.pure]

/-- A command without a path does what it does with the path of its source. -/
theorem carryOut_of_sourcePath (steps : Nat) (found : sourcePath files options path = .ok place)
    (given : place ≠ "") :
    carryOut steps files input ⟨options, .source command path⟩ =
      carryOut steps files input ⟨options, .source command place⟩ := by
  have same : job files input ⟨options, .source command path⟩ =
      job files input ⟨options, .source command place⟩ := by
    rw [job_source found, job_source (sourcePath_of_ne given)]
  simp only [carryOut, same]

/-- Only the source that is loaded matters of the standard input. -/
theorem carryOut_congr (steps : Nat) (found : sourcePath files options path = .ok place)
    (same : SourceFile.load files input place = SourceFile.load files other place) :
    carryOut steps files input ⟨options, .source command path⟩ =
      carryOut steps files other ⟨options, .source command path⟩ := by
  have tokens : loadTokens files input place = loadTokens files other place := by
    simp only [loadTokens, same]
  have program : loadProgram files input place = loadProgram files other place := by
    simp only [loadProgram, tokens]
  have jobs : job files input ⟨options, .source command path⟩ =
      job files other ⟨options, .source command path⟩ := by
    rw [job_source found, job_source found]
    cases command <;> simp only [sourceJob, tokens, program]
  simp only [carryOut, jobs]

/-- How the entry of a manifest in a directory is read at a path. -/
structure ReadsEntry (files : FileTree) (manifest : Manifest) (inside : Place) (path : String) :
    Prop where
  /-- The path is that of the standard input exactly if the entry denotes the file of that
  name in the working directory. -/
  input_iff : path = SourceFile.inputPath ↔ manifest.entryPlace inside = [SourceFile.inputPath]
  /-- Then nothing but the standard input is read. -/
  input : path = SourceFile.inputPath → ∀ input : Input, SourceFile.load files input path =
    (input.readAll.map fun text => ⟨text, SourceFile.inputName⟩).mapError .input
  /-- Otherwise what is read is the file that the entry denotes. -/
  file : path ≠ SourceFile.inputPath → ∀ input source,
    SourceFile.load files input path = .ok source →
      files.entry? (manifest.entryPlace inside) = some (.file source.text)
  /-- It is read if the names of the entry can be followed to it. -/
  followed : path ≠ SourceFile.inputPath → ∀ input place text,
    files.follow (manifest.entryOrigin inside) (parts manifest.entry) = .ok place →
      files.entry? place = some (.file text) → SourceFile.load files input path = .ok ⟨text, path⟩

/-- Where the directory of the manifest is found, its entry is read from there. -/
theorem readsEntry {inside : Place} (given : manifest.entry ≠ "")
    (walked : files.follow (.origin path) (parts path).dropLast = .ok inside)
    (stands : files.entry? inside = some .directory) :
    ReadsEntry files manifest inside (manifest.entryPath path) where
  input_iff := Manifest.entryPath_eq_input_iff walked
  input same input := by
    rw [SourceFile.load, if_pos same]
    cases input.readAll <;> rfl
  file named input source loaded := by
    obtain ⟨place, leads, held⟩ := SourceFile.exists_of_load named loaded
    rw [← Manifest.eq_entryPlace_of_leads walked leads]
    exact held
  followed named input place text below held :=
    SourceFile.load_of_file named (Manifest.leads_entryPath given walked stands below) held

/-- A manifest that is found stands in a directory. -/
theorem exists_directory_of_findManifest
    (found : findManifest files path = .ok (some manifest)) :
    ∃ inside name, files.Leads path (inside ++ [name]) ∧
      (∃ text, files.entry? (inside ++ [name]) = some (.file text)) ∧
      files.entry? inside = some .directory ∧
      files.follow (.origin path) (parts path).dropLast = .ok inside := by
  obtain ⟨content, held, _⟩ := exists_read_of_findManifest found
  obtain ⟨place, leads, file⟩ := FileTree.read_eq_ok_iff.mp held
  obtain ⟨inside, name, rfl, stands, walked⟩ := leads.exists_directory (by simp [file])
  exact ⟨inside, name, leads, ⟨content, file⟩, stands, walked⟩

end Invocation

/-- **The entry of a manifest.** A source command without a path does what it does with the
path of the entry, which reads the file that the entry denotes from the directory of the
manifest, and then the standard input does not matter. The exception is an entry that
denotes the file in the working directory that is called like the standard input: it is
read from there instead. -/
theorem invoke_entry {arguments : List String} {options : Options} {command : SourceCommand}
    {files : FileTree} {manifest : Manifest}
    (understood : Invocation.ofArguments arguments = .ok ⟨options, .source command ""⟩)
    (found : Invocation.findManifest files options.manifest = .ok (some manifest))
    (given : manifest.entry ≠ "") :
    ∃ inside name, files.Leads options.manifest (inside ++ [name]) ∧
      files.entry? inside = some .directory ∧
      Invocation.ReadsEntry files manifest inside (manifest.entryPath options.manifest) ∧
      (∀ steps input, invoke steps files input arguments = Invocation.carryOut steps files input
        ⟨options, .source command (manifest.entryPath options.manifest)⟩) ∧
      (manifest.entryPlace inside ≠ [SourceFile.inputPath] → ∀ steps input other,
        invoke steps files input arguments = invoke steps files other arguments) := by
  obtain ⟨inside, name, leads, _, stands, walked⟩ :=
    Invocation.exists_directory_of_findManifest found
  have reads := Invocation.readsEntry given walked stands
  have path := Invocation.sourcePath_of_findManifest found given
  refine ⟨inside, name, leads, stands, reads, fun steps input => ?_, fun elsewhere => ?_⟩
  · rw [Invocation.invoke_of_ok understood]
    exact Invocation.carryOut_of_sourcePath steps path (Manifest.entryPath_ne_empty given)
  · intro steps input other
    rw [Invocation.invoke_of_ok understood, Invocation.invoke_of_ok understood]
    exact Invocation.carryOut_congr steps path
      (SourceFile.load_congr (mt reads.input_iff.mp elsewhere))

/-- The manifest of a module whose entry is a file that is called like the standard
input. -/
def dashManifest : Manifest where
  package := "dash"
  entry := "./-"

/-- Such a module in a directory. -/
def dashModule (inside : Place) : FileTree where
  entries := [(inside, .directory), (inside ++ ["peri.yml"], .file dashManifest.write),
    (inside ++ ["-"], .file (Bytes.ofString "print 1;"))]

/-- In another directory the file is read, whatever the standard input is. -/
theorem dashModule_invoke_entry :
    (∀ input, SourceFile.load (dashModule ["m"]) input "m/-" =
      .ok ⟨Bytes.ofString "print 1;", "m/-"⟩) ∧
    ∀ steps input other,
      invoke steps (dashModule ["m"]) input ["--manifest", "m/peri.yml", "run"] =
        invoke steps (dashModule ["m"]) other ["--manifest", "m/peri.yml", "run"] := by
  have leads : (dashModule ["m"]).Leads "m/peri.yml" ["m", "peri.yml"] := ⟨by decide, rfl⟩
  have found : Invocation.findManifest (dashModule ["m"]) "m/peri.yml" = .ok (some dashManifest) :=
    Invocation.findManifest_of_leads leads rfl
  have understood : Invocation.ofArguments ["--manifest", "m/peri.yml", "run"] =
      .ok ⟨{ manifest := "m/peri.yml" }, .source .run ""⟩ := by decide
  obtain ⟨inside, name, also, _, reads, _, alike⟩ := invoke_entry understood found (by decide)
  obtain ⟨rfl, _⟩ : inside = ["m"] ∧ [name] = ["peri.yml"] :=
    List.append_inj' (Except.ok.inj (also.2.symm.trans leads.2)) rfl
  refine ⟨fun input => ?_, alike (by decide)⟩
  have path : dashManifest.entryPath "m/peri.yml" = "m/-" := by decide
  rw [path] at reads
  exact reads.followed (by decide) input ["m", "-"] _ rfl rfl

/-- In the working directory the standard input is read instead of the file. -/
theorem dashModule_reads_input :
    dashManifest.entry ≠ "-" ∧
    Invocation.findManifest (dashModule []) "peri.yml" = .ok (some dashManifest) ∧
    FileTree.entry? (dashModule []) ["-"] = some (.file (Bytes.ofString "print 1;")) ∧
    (invoke 9 (dashModule []) (.ofString "print 2;") ["run"]).map (·.output) =
      some (Bytes.ofString "2\n") ∧
    (invoke 9 (dashModule []) (.ofString "print 3;") ["run"]).map (·.output) =
      some (Bytes.ofString "3\n") := by
  have found : Invocation.findManifest (dashModule []) "peri.yml" = .ok (some dashManifest) :=
    Invocation.findManifest_of_leads ⟨by decide, rfl⟩ rfl
  have understood : Invocation.ofArguments ["run"] = .ok ⟨{}, .source .run ""⟩ := by decide
  have path : Invocation.sourcePath (dashModule []) {} "" =
      .ok (dashManifest.entryPath "peri.yml") :=
    Invocation.sourcePath_of_findManifest found (by decide)
  have known : Invocation.level (dashModule []) {} = .ok .notice :=
    Invocation.level_of_findManifest found rfl rfl
  refine ⟨by decide, found, rfl, ?_⟩
  -- The level and the path are settled, so that the manifest need not be read by evaluation.
  rw [Invocation.invoke_of_ok understood, Invocation.invoke_of_ok understood]
  simp only [Invocation.carryOut, known, Invocation.job_source path]
  decide +kernel

end Scriptlet

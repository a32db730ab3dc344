import JavaOutline.Cli.Run
import JavaOutline.Proofs.CommandLines
import JavaOutline.Proofs.FileWriting

/-!
# JavaOutline.Proofs.Extraction

Runs that extract a document.

Up to the write a run only looks at files: the document at a path, or the report why there is
none, is a function of the files (`documentAt`, `run_readDocument`), so whatever goes wrong
before the write leaves them alone, and the file is opened only where nothing obstructs it, which
is where it can also be written to. The same document is printed or written (`outputs_agree`), and what `Prevents`
lists is all that can go wrong (`failed_extraction_changes_nothing`).
-/

namespace JavaOutline.Cli

/-! ## Source files -/

theorem fromUTF8?_toUTF8 (s : String) : String.fromUTF8? s.toUTF8 = some s := by
  rw [String.fromUTF8?, String.toUTF8_eq_toByteArray, dif_pos s.isValidUTF8]
  rfl

theorem toUTF8_of_fromUTF8? {bytes : ByteArray} {s : String}
    (h : String.fromUTF8? bytes = some s) : s.toUTF8 = bytes := by
  unfold String.fromUTF8? at h
  split at h
  · obtain rfl := Option.some.inj h
    rfl
  · contradiction

namespace FileTree

variable {t : FileTree} {path : String} {options : ExtractOptions}

theorem isFile_of_read {content : ByteArray} (h : t.read path = .ok content) :
    t.isFile path = true := by
  simp only [read, bind, Except.bind] at h
  split at h
  · contradiction
  · next node hfind =>
    cases node with
    | directory => contradiction
    | file => simp [isFile, hfind]

/-- The text of the document at a path, or why there is none. -/
def documentAt (t : FileTree) (path : String) (options : ExtractOptions) : Except Report String :=
  if t.isFile path then
    match t.read path with
    | .error e => .error (.ofReason ("Failed to read " ++ path) e.message)
    | .ok bytes => documentText path options bytes
  else .error (.ofFailure (.inputNotFound path))

theorem documentAt_eq_ok (t : FileTree) {path source : String} {u : CompilationUnit}
    (hread : t.read path = .ok source.toUTF8) (hparse : CompilationUnit.parse source = .ok u)
    (options : ExtractOptions) : t.documentAt path options = .ok (u.render options) := by
  simp only [documentAt, isFile_of_read hread, if_true, hread, documentText, fromUTF8?_toUTF8,
    hparse]

/-! ### Operations -/

@[simp] theorem run_isFile (t : FileTree) (path : String) :
    (access.isFile path).run t = pure (t.isFile path, t) := rfl

@[simp] theorem run_read (t : FileTree) (path : String) :
    (access.read path).run t = pure (t.read path, t) := rfl

theorem run_readDocument (t : FileTree) (path : String) (options : ExtractOptions) :
    (readDocument access path options).run t = pure (t.documentAt path options, t) := by
  simp only [readDocument, documentAt, StateT.run_bind, run_isFile, pure_bind]
  cases t.isFile path with
  | false => rfl
  | true =>
      simp only [if_true, StateT.run_bind, run_read, pure_bind]
      cases t.read path <;> rfl

end FileTree

/-! ## Runs -/

variable {args : List String} {r : ExtractRequest}

/-- An extraction whose source file has no document fails. -/
theorem run_of_documentAt_error (h : Requests args r) {t : FileTree} {report : Report}
    (hdocument : t.documentAt r.input r.options = .error report) :
    (run FileTree.access none args).run t = (.failure report, t) := by
  simp only [run, Requests] at h ⊢
  rw [h]
  simp only [Invocation.run, Command.run, StateT.run_bind, FileTree.run_readDocument, hdocument,
    pure_bind]
  rfl

/-- Otherwise it is up to where the document goes. -/
theorem run_of_documentAt_ok (h : Requests args r) {t : FileTree} {document : String}
    (hdocument : t.documentAt r.input r.options = .ok document) :
    (run FileTree.access none args).run t = (emit FileTree.access r.output document).run t := by
  simp only [run, Requests] at h ⊢
  rw [h]
  simp only [Invocation.run, Command.run, StateT.run_bind, FileTree.run_readDocument, hdocument,
    pure_bind]

/-- A document is printed where no path is given for it. -/
theorem run_emit_none (t : FileTree) (document : String) :
    (emit FileTree.access none document).run t = (.success (document ++ "\n"), t) := rfl

/-- What is printed says whether the document could be written. -/
theorem run_emit_some {t t' : FileTree} {path document : String} {result : Except OsError Unit}
    (h : (FileTree.access.write path (document ++ "\n").toUTF8).run t = (result, t')) :
    (emit FileTree.access (some path) document).run t = (.ofWriting path result, t') := by
  simp only [emit, StateT.run_bind, h]
  rfl

/-! ## Where the document goes -/

/-- **The document is the same wherever it goes**: it is printed, or it is what the file at the
path holds after the run, whatever was there before it, be it the source. Nothing else
changes. -/
theorem outputs_agree {t : FileTree} {input source : String} {u : CompilationUnit}
    (hread : t.read input = .ok source.toUTF8) (hparse : CompilationUnit.parse source = .ok u)
    (strict all : Bool) :
    let text := u.render ⟨strict, if all then .all else .root⟩ ++ "\n"
    (∀ args, Requests args ⟨input, none, strict, all⟩ →
        (run FileTree.access none args).run t = (⟨0, text, ""⟩, t))
      ∧ (∀ args path, Requests args ⟨input, some path, strict, all⟩ → ¬ t.Obstructs path →
        ∃ t', (run FileTree.access none args).run t = (⟨0, "", ""⟩, t')
          ∧ t.HoldsOnly t' path text.toUTF8)
      ∧ (IsPlain input →
        Requests ("extract" :: input :: (flagArguments strict all ++ ["--stdout"]))
            ⟨input, none, strict, all⟩
          ∧ (∀ path, IsPlain path →
            Requests ("extract" :: input :: (flagArguments strict all ++ ["-o", path]))
              ⟨input, some path, strict, all⟩)
          ∧ Requests ("extract" :: input :: flagArguments strict all)
            ⟨input, some "output.json", strict, all⟩) := by
  have hdocument := t.documentAt_eq_ok hread hparse ⟨strict, if all then .all else .root⟩
  refine ⟨fun args h => ?_, fun args path h hpath => ?_, fun hinput => ?_⟩
  · rw [run_of_documentAt_ok h hdocument, run_emit_none]
    rfl
  · obtain ⟨place, hplace, hnode, hslash, hwrite⟩ := FileTree.write_of_not_obstructs hpath _
    refine ⟨_, ?_, FileTree.holdsOnly_set hplace hnode hslash _⟩
    rw [run_of_documentAt_ok h hdocument, run_emit_some (FileTree.run_write_of_write hwrite)]
    rfl
  · exact ⟨requests_stdout hinput strict all,
      fun path hpath => requests_output hinput hpath strict all,
      requests_default hinput strict all⟩

/-- A directory with a source file in it. -/
def sampleTree : FileTree := ⟨[(["A.java"], .file "class A \x7b\x7d".toUTF8)], []⟩

/-- The document of a source file is printed, or put in its place. -/
theorem outputs_agree_sampleTree : ∃ u, CompilationUnit.parse "class A \x7b\x7d" = .ok u
    ∧ (run FileTree.access none ["extract", "A.java", "--strict", "--stdout"]).run sampleTree
      = (⟨0, u.render ⟨true, .root⟩ ++ "\n", ""⟩, sampleTree)
    ∧ ∃ t', (run FileTree.access none ["extract", "A.java", "--strict", "-o", "A.java"]).run sampleTree
        = (⟨0, "", ""⟩, t')
      ∧ sampleTree.HoldsOnly t' "A.java" (u.render ⟨true, .root⟩ ++ "\n").toUTF8 := by
  have hplain : IsPlain "A.java" := by decide
  have hread : sampleTree.read "A.java" = .ok "class A \x7b\x7d".toUTF8 := rfl
  have hcreate : ∃ created, sampleTree.create "A.java" = .ok created := ⟨_, rfl⟩
  have hparse : ∃ u, CompilationUnit.parse "class A \x7b\x7d" = .ok u
      ∧ u.types.map (·.name) = ["A"] :=
    CompilationUnit.exists_parse_of_check (by decide +kernel)
  obtain ⟨u, hu, -⟩ := hparse
  obtain ⟨hprinted, hwritten, hrequests⟩ := outputs_agree hread hu true false
  obtain ⟨hstdout, houtput, -⟩ := hrequests hplain
  refine ⟨u, hu, hprinted _ hstdout, hwritten _ _ (houtput _ hplain) fun hobstructs => ?_⟩
  obtain ⟨created, hcreated⟩ := hcreate
  obtain ⟨e, he⟩ := FileTree.create_of_obstructs hobstructs
  rw [hcreated] at he
  contradiction

/-! ## Failures -/

/-- What keeps a document from being extracted. -/
inductive FileTree.Prevents (t : FileTree) (r : ExtractRequest) : Prop
  /-- There is no file at the path of the source. -/
  | noFile (h : ∀ content, t.find (.ofText r.input) ≠ .ok (.file content))
  /-- The file is no text. -/
  | notText {bytes : ByteArray} (hread : t.read r.input = .ok bytes)
      (h : ∀ source : String, source.toUTF8 ≠ bytes)
  /-- The text is no valid source. -/
  | rejected {source : String} {f : Failure} (hread : t.read r.input = .ok source.toUTF8)
      (h : CompilationUnit.parse source = .error f)
  /-- Something stands in the way of the document. -/
  | unwritable {path : String} (houtput : r.output = some path) (h : t.Obstructs path)

/-- Nothing but what prevents an extraction keeps it from having a document. -/
theorem exists_of_not_prevents {t : FileTree} (h : ¬ t.Prevents r) :
    ∃ text, t.documentAt r.input r.options = .ok text := by
  by_cases hfile : ∃ content, t.find (.ofText r.input) = .ok (.file content)
  · obtain ⟨bytes, hfind⟩ := hfile
    have hread : t.read r.input = .ok bytes := by
      simp only [FileTree.read, hfind, bind, Except.bind]
    by_cases htext : ∃ source : String, source.toUTF8 = bytes
    · obtain ⟨source, rfl⟩ := htext
      cases hparse : CompilationUnit.parse source with
      | error f => exact absurd (.rejected hread hparse) h
      | ok u => exact ⟨_, t.documentAt_eq_ok hread hparse r.options⟩
    · exact absurd (.notText hread fun source hsource => htext ⟨source, hsource⟩) h
  · exact absurd (.noFile fun content hfind => hfile ⟨content, hfind⟩) h

/-- What prevents an extraction keeps it from having a document, or is in the way of it. -/
theorem FileTree.Prevents.cases {t : FileTree} (h : t.Prevents r) :
    (∃ report, t.documentAt r.input r.options = .error report)
      ∨ ∃ path, r.output = some path ∧ t.Obstructs path := by
  cases h with
  | noFile hfile =>
      have hnot : t.isFile r.input = false := by
        unfold isFile
        split
        · next content hfind => exact absurd hfind (hfile content)
        · rfl
      exact .inl ⟨.ofFailure (.inputNotFound r.input), by simp [documentAt, hnot]⟩
  | notText hread htext =>
      refine .inl
        ⟨.ofReason ("Failed to read " ++ r.input) "stream did not contain valid UTF-8", ?_⟩
      rw [documentAt, if_pos (isFile_of_read hread), hread]
      simp only [documentText]
      split
      · rfl
      · next source hsource => exact absurd (toUTF8_of_fromUTF8? hsource) (htext source)
  | @rejected source f hread hparse =>
      refine .inl ⟨.ofFailure (.parsing (r.input ++ ": " ++ f.message)), ?_⟩
      simp only [documentAt, isFile_of_read hread, if_true, hread, documentText, fromUTF8?_toUTF8,
        hparse]
  | unwritable houtput hpath => exact .inr ⟨_, houtput, hpath⟩

/-- **An extraction that fails changes nothing**: if something prevents it, it prints no document
and leaves all files and directories as they are, and it fails for no other reason. -/
theorem failed_extraction_changes_nothing (h : Requests args r) (t : FileTree) :
    (t.Prevents r →
        ∃ message, (run FileTree.access none args).run t = (⟨1, "", message⟩, t))
      ∧ (¬ t.Prevents r → ((run FileTree.access none args).run t).1.exitCode = 0) := by
  constructor
  · intro hprevents
    cases hdocument : t.documentAt r.input r.options with
    | error report => exact ⟨_, run_of_documentAt_error h hdocument⟩
    | ok document =>
        rcases hprevents.cases with ⟨report, hreport⟩ | ⟨path, houtput, hpath⟩
        · rw [hdocument] at hreport
          contradiction
        · obtain ⟨e, he⟩ := FileTree.run_write_of_obstructs hpath (document ++ "\n").toUTF8
          rw [run_of_documentAt_ok h hdocument, houtput, run_emit_some he]
          exact ⟨_, rfl⟩
  · intro hprevents
    obtain ⟨document, hdocument⟩ := exists_of_not_prevents hprevents
    rw [run_of_documentAt_ok h hdocument]
    cases houtput : r.output with
    | none => rfl
    | some path =>
        have hpath : ¬ t.Obstructs path := fun hpath => hprevents (.unwritable houtput hpath)
        obtain ⟨place, -, -, -, hwrite⟩ :=
          FileTree.write_of_not_obstructs hpath (document ++ "\n").toUTF8
        rw [run_emit_some (FileTree.run_write_of_write hwrite)]
        rfl

/-- There is no directory for the document of a valid source. -/
theorem failed_extraction_changes_nothing_sampleTree :
    Requests ["extract", "A.java", "-o", "out/A.json"] ⟨"A.java", some "out/A.json", false, false⟩
      ∧ sampleTree.Prevents ⟨"A.java", some "out/A.json", false, false⟩
      ∧ ∃ message, (run FileTree.access none ["extract", "A.java", "-o", "out/A.json"]).run sampleTree
        = (⟨1, "", message⟩, sampleTree) := by
  have hrequests : Requests ["extract", "A.java", "-o", "out/A.json"]
      ⟨"A.java", some "out/A.json", false, false⟩ :=
    requests_output (by decide) (by decide) false false
  have hnames : (Path.ofText "out/A.json").names = ["out"] ++ "A.json" :: [] := rfl
  have hprevents : sampleTree.Prevents ⟨"A.java", some "out/A.json", false, false⟩ :=
    .unwritable rfl (.missing hnames rfl rfl)
  exact ⟨hrequests, hprevents, (failed_extraction_changes_nothing hrequests sampleTree).1 hprevents⟩

end JavaOutline.Cli

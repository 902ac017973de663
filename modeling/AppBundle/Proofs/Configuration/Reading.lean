import AppBundle.Configuration.Json
import AppBundle.Proofs.FileSystem.PathText
import AppBundle.Proofs.Json.Reader

namespace AppBundle

/-! Written settings are read back. Every field is written, each in a form of its own, so that what a
reader finds depends on nothing else; only the paths have to be texts, and the number of tasks has to
fit a machine word, as any number does that was read.
-/

open Json RecordReader

namespace Json

variable {α : Type} {reader : Reader α} {shown : String → α} {value : Nat} {document : Document}

theorem digitsValue_toDigits (value : Nat) :
    digitsValue ((Nat.toDigits 10 value).map (·.toNat - 48)) = value := by
  have sum : digitsValue ((Nat.toDigits 10 value).map (·.toNat - 48)) =
      Nat.ofDigitChars 10 (Nat.toDigits 10 value) 0 := by
    rw [digitsValue, List.foldl_map, Nat.ofDigitChars]
    congr 1
    funext total digit
    rw [Nat.mul_comm]
    rfl
  rw [sum, Nat.ofDigitChars_toDigits (by decide) (by decide)]

theorem readCount_natural (bounded : value < wordLimit) :
    readCount (Json.natural value).document = .ok value := by
  have whole : (numeral value).value = .natural value := by
    rw [Numeral.value, numeral, digitsValue_toDigits]
    simp [bounded]
  rw [Json.document, readCount, whole]

theorem lt_wordLimit_of_value {numeral : Numeral} (natural : numeral.value = .natural value) :
    value < wordLimit := by
  unfold Numeral.value at natural
  dsimp only at natural
  split at natural
  · next small =>
      cases natural
      simp only [Bool.and_eq_true, decide_eq_true_eq] at small
      exact small.2
  · split at natural
    · cases natural
    · split at natural <;> cases natural

theorem lt_wordLimit_of_readCount (read : readCount document = .ok value) : value < wordLimit := by
  unfold readCount at read
  split at read
  · split at read
    · next natural =>
        cases read
        exact lt_wordLimit_of_value natural
    · cases read
    · cases read
  · cases read

theorem readList_texts (reads : ∀ text, reader (.text text) = .ok (shown text)) (texts : List String) :
    readList reader (Json.texts texts).document = .ok (texts.map shown) :=
  readList_written fun text _ => reads text

theorem readOptional_optionalText (reads : ∀ text, reader (.text text) = .ok (shown text))
    (text : Option String) :
    readOptional reader (Json.optionalText text).document = .ok (text.map shown) := by
  cases text with
  | none => rfl
  | some text => exact congrArg (Except.map some) (reads text)

end Json

theorem Path.read_text (text : String) : Path.read (.text text) = .ok (.mk text) :=
  rfl

theorem Path.isText_of_read {document : Document} {path : Path} (read : Path.read document = .ok path) :
    path.isText = true := by
  obtain ⟨text, _, rfl⟩ := map_ok.mp read
  exact RawText.isText_ofText text

theorem isText_of_readOptional {document : Document} {value : Option Path}
    (read : readOptional Path.read document = .ok value) : ∀ path ∈ value.toList, path.isText = true := by
  unfold readOptional at read
  split at read
  · cases read
    nofun
  · obtain ⟨path, here, rfl⟩ := map_ok.mp read
    simpa using Path.isText_of_read here

theorem readList_paths {paths : List Path} (texts : ∀ path ∈ paths, path.isText = true) :
    readList Path.read (Json.texts (paths.map Path.shown)).document = .ok paths := by
  rw [Json.readList_texts Path.read_text, List.map_map]
  refine congrArg Except.ok ((List.map_congr_left fun path member => ?_).trans (List.map_id paths))
  exact Path.mk_shown (texts path member)

theorem readOptional_path {value : Option Path} (texts : ∀ path ∈ value.toList, path.isText = true) :
    readOptional Path.read (Json.optionalText (value.map Path.shown)).document = .ok value := by
  cases value with
  | none => rfl
  | some path =>
      rw [Json.readOptional_optionalText Path.read_text]
      exact congrArg (Except.ok ∘ some) (Path.mk_shown (texts path (by simp)))

theorem SharedLibrary.reader_toJson (library : SharedLibrary) :
    SharedLibrary.record.reader library.toJson.document = .ok library :=
  rfl

theorem AdditionRequest.reader_toJson (request : AdditionRequest) :
    AdditionRequest.record.reader request.toJson.document = .ok request := by
  have text (text : String) : readString (.text text) = .ok (id text) := rfl
  have dependencies := readList_texts text request.dependencies
  rw [List.map_id] at dependencies
  have filled : record.readFields ⟨⟨some request.group, some request.name⟩, []⟩
      [("dependencies", .texts request.dependencies)] =
      .ok ⟨⟨some request.group, some request.name⟩, request.dependencies⟩ := by
    refine readFields_cons ?_ rfl
    simp only [record, dependencies]
    rfl
  exact reader_written (by decide) (.refl _) (readFields_cons rfl (readFields_cons rfl filled))

theorem MergePolicy.read_toJson (policy : MergePolicy) :
    MergePolicy.read policy.toJson.document = .ok policy := by
  cases policy <;> rfl

namespace Configuration

variable {configuration : Configuration}

/-- Settings that are read as they were written. -/
structure Writable (configuration : Configuration) : Prop where
  bounded : configuration.concurrency < wordLimit
  texts : ∀ path ∈ configuration.paths, path.isText = true

theorem reader_toJson (writable : configuration.Writable) :
    record.reader configuration.toJson.document = .ok configuration := by
  have libraries : readList SharedLibrary.record.reader
      (document (.array (configuration.sharedLibraries.map (·.toJson)))) =
      .ok (configuration.sharedLibraries.map id) :=
    readList_written fun library _ => library.reader_toJson
  have additions : readList AdditionRequest.record.reader
      (document (.array (configuration.additions.map (·.toJson)))) =
      .ok (configuration.additions.map id) :=
    readList_written fun request _ => request.reader_toJson
  have texts := writable.texts
  rw [paths, List.forall_mem_append, List.forall_mem_append] at texts
  have models := readList_paths texts.1.1
  have repository := readOptional_path texts.1.2
  have output := readOptional_path texts.2
  have count := readCount_natural writable.bounded
  rw [List.map_id] at libraries additions
  have filled : record.readFields record.empty
    [("shared_libraries", .array (configuration.sharedLibraries.map (·.toJson))),
      ("additional_module_dependencies", .array (configuration.additions.map (·.toJson))),
      ("merge_policy", configuration.mergePolicy.toJson),
      ("nested_models", .texts (configuration.nestedModels.map (·.shown))),
      ("pretty_print", .boolean configuration.prettyPrint),
      ("concurrency", .natural configuration.concurrency),
      ("repository_placeholder", .text configuration.repositoryPlaceholder),
      ("local_repository", .optionalText (configuration.localRepository.map (·.shown))),
      ("introspect", .boolean configuration.introspect),
      ("application_output", .optionalText (configuration.applicationOutput.map (·.shown))),
      ("write_checksums", .boolean configuration.writeChecksums)] = .ok configuration := by
    simp only [readFields, List.foldlM_cons, List.foldlM_nil, record, libraries, additions, models,
      repository, output, count, MergePolicy.read_toJson]
    rfl
  exact reader_written (by decide) (.refl _) filled

/-- Every setting is the default, or it was read. -/
theorem writable_of_reader {document : Document} (read : record.reader document = .ok configuration) :
    configuration.Writable := by
  have keeps (draft : Configuration) (field : String) (value : Document) (next : Configuration)
      (writable : draft.Writable) (read : record.read draft field value = .ok next) :
      next.Writable := by
    have texts := writable.texts
    rw [paths, List.forall_mem_append, List.forall_mem_append] at texts
    dsimp only [record] at read
    split at read
    case h_4 =>
      obtain ⟨models, here, same⟩ := bind_ok.mp read
      cases same
      refine ⟨writable.bounded, List.forall_mem_append.mpr ⟨List.forall_mem_append.mpr
        ⟨fun path member => ?_, texts.1.2⟩, texts.2⟩⟩
      obtain ⟨_, model⟩ := of_readList here member
      exact Path.isText_of_read model
    case h_6 =>
      obtain ⟨count, here, same⟩ := bind_ok.mp read
      cases same
      exact ⟨lt_wordLimit_of_readCount here, writable.texts⟩
    case h_8 =>
      obtain ⟨repository, here, same⟩ := bind_ok.mp read
      cases same
      exact ⟨writable.bounded, List.forall_mem_append.mpr ⟨List.forall_mem_append.mpr
        ⟨texts.1.1, isText_of_readOptional here⟩, texts.2⟩⟩
    case h_10 =>
      obtain ⟨output, here, same⟩ := bind_ok.mp read
      cases same
      exact ⟨writable.bounded, List.forall_mem_append.mpr ⟨List.forall_mem_append.mpr texts.1,
        isText_of_readOptional here⟩⟩
    case h_12 =>
      cases read
      exact writable
    all_goals
      obtain ⟨_, _, same⟩ := bind_ok.mp read
      cases same
      exact ⟨writable.bounded, writable.texts⟩
  obtain ⟨_, draft, writable, finished⟩ := of_reader keeps ⟨by decide, nofun⟩ read
  cases finished
  exact writable

theorem readFromSoundText_render (writable : configuration.Writable) (pretty : Bool) :
    readFromSoundText record.reader (configuration.toJson.render pretty) = .ok configuration := by
  have read : readFromText record.reader (configuration.toJson.render pretty) = .ok configuration := by
    rw [Json.readFromText_render, reader_toJson writable]
  rw [readFromSoundText, read]

theorem writable_of_readFromSoundText {text : String}
    (read : readFromSoundText record.reader text = .ok configuration) : configuration.Writable := by
  unfold readFromSoundText at read
  split at read
  · cases read
  · obtain ⟨_, here⟩ := of_readScalars read
    exact writable_of_reader here

end Configuration

end AppBundle

import AppBundle.Proofs.Json.Document
import AppBundle.Proofs.Traversal

namespace AppBundle.Json

/-! Readers on the documents of written values. A list is read where each of its items is. A record
that was written in the order of its fields, whichever of them were left out, is read by filling the
draft one field after the other. Whatever document a record is read from, a property of drafts that
every field keeps holds of the draft that is completed.
-/

variable {α β δ : Type} {draft next : δ} {record : RecordReader δ α}
  {members : List (String × Json)} {seen : List String}

theorem readList_written {reader : Reader β} {encode : α → Json} {shown : α → β} {values : List α}
    (reads : ∀ value ∈ values, reader (encode value).document = .ok (shown value)) :
    readList reader (document (.array (values.map encode))) = .ok (values.map shown) := by
  have mapped : ((values.map encode).map document).mapM reader = .ok (values.map shown) := by
    rw [mapM_ok, List.map_map, List.forall₂_map_left_iff, List.forall₂_map_right_iff,
      List.forall₂_same]
    exact reads
  rw [document, documents_eq_map, readList, mapped]
  rfl

theorem of_readList {reader : Reader α} {document : Document} {values : List α}
    (read : readList reader document = .ok values) {value : α} (member : value ∈ values) :
    ∃ item, reader item = .ok value := by
  unfold readList at read
  split at read
  · next items closed =>
      obtain ⟨found, mapped, done⟩ := bind_ok.mp read
      have same : found = values := by
        split at done
        · exact Except.ok.inj done
        · cases done
      obtain ⟨item, _, here⟩ := (mem_of_mapM_ok mapped).mp (same ▸ member)
      exact ⟨item, here⟩
  · cases read

theorem of_readScalars {reader : Reader α} {input : List (Option Char)} {value : α}
    (read : readScalars reader input = .ok value) : ∃ document, reader document = .ok value := by
  obtain ⟨found, here, done⟩ := bind_ok.mp read
  split at done
  · cases done
    exact ⟨_, here⟩
  · cases done

namespace RecordReader

/-- Reads written fields into a draft, one after the other. -/
def readFields (record : RecordReader δ α) (draft : δ) (members : List (String × Json)) :
    Except ReadError δ :=
  members.foldlM (fun draft member => record.read draft member.1 member.2.document) draft

theorem readFields_append {before after : List (String × Json)} {result : δ}
    (first : record.readFields draft before = .ok next)
    (second : record.readFields next after = .ok result) :
    record.readFields draft (before ++ after) = .ok result := by
  rw [readFields, List.foldlM_append]
  exact bind_ok.mpr ⟨next, first, second⟩

theorem readFields_cons {name : String} {value : Json} {rest : List (String × Json)} {result : δ}
    (first : record.read draft name value.document = .ok next)
    (second : record.readFields next rest = .ok result) :
    record.readFields draft ((name, value) :: rest) = .ok result :=
  bind_ok.mpr ⟨next, first, second⟩

/-- Known fields that come once each are read one after the other. -/
theorem readMembers_written (known : ∀ member ∈ members, member.1 ∈ record.fields)
    (fresh : ∀ member ∈ members, member.1 ∉ seen) (distinct : members.Pairwise (·.1 ≠ ·.1)) :
    record.readMembers seen draft (memberDocuments members) = record.readFields draft members := by
  induction members generalizing draft seen with
  | nil => rfl
  | cons member rest ih =>
      obtain ⟨knownHere, knownRest⟩ := List.forall_mem_cons.mp known
      obtain ⟨freshHere, freshRest⟩ := List.forall_mem_cons.mp fresh
      obtain ⟨different, distinctRest⟩ := List.pairwise_cons.mp distinct
      rw [memberDocuments, readMembers, if_pos knownHere, if_neg freshHere, readFields,
        List.foldlM_cons]
      cases record.read draft member.1 member.2.document with
      | error objection => rfl
      | ok next =>
          refine ih knownRest (fun other later => ?_) distinctRest
          rw [List.mem_cons, not_or]
          exact ⟨(different other later).symm, freshRest other later⟩

/-- A record is completed from its written fields, which come in the order of declaration. -/
theorem reader_written (declared : record.fields.Nodup)
    (listed : (members.map Prod.fst).Sublist record.fields)
    (filled : record.readFields record.empty members = .ok draft) :
    record.reader (document (.object members)) =
      record.finish (fun field => .mistaken (.missingField field)) draft := by
  have known : ∀ member ∈ members, member.1 ∈ record.fields :=
    fun member there => listed.subset (List.mem_map_of_mem there)
  have distinct : members.Pairwise (·.1 ≠ ·.1) :=
    List.pairwise_map.mp (declared.sublist listed)
  have fresh : ∀ member ∈ members, member.1 ∉ ([] : List String) := fun _ _ => List.not_mem_nil
  rw [document, reader, readMembers_written known fresh distinct, filled]
  rfl

variable {Holds : δ → Prop}

theorem readMembers_keeps
    (keeps : ∀ draft field value next, Holds draft → record.read draft field value = .ok next →
      Holds next)
    {members : List (Option String × Document)} (start : Holds draft)
    (read : record.readMembers seen draft members = .ok next) : Holds next := by
  induction members generalizing draft seen with
  | nil =>
      cases read
      exact start
  | cons member rest ih =>
      obtain ⟨key, value⟩ := member
      cases key with
      | none => cases read
      | some key =>
          unfold readMembers at read
          split at read
          · split at read
            · cases read
            · split at read
              · cases read
              · next filled here => exact ih (keeps _ _ _ _ start here) read
          · split at read
            · exact ih start read
            · cases read

theorem readItems_keeps
    (keeps : ∀ draft field value next, Holds draft → record.read draft field value = .ok next →
      Holds next)
    {fields : List String} {items : List Document} (start : Holds draft)
    (read : record.readItems draft fields items = .ok next) : Holds next := by
  induction fields generalizing draft items with
  | nil =>
      cases read
      exact start
  | cons field fields ih =>
      cases items with
      | nil =>
          cases read
          exact start
      | cons item items =>
          unfold readItems at read
          split at read
          · cases read
          · next filled here => exact ih (keeps _ _ _ _ start here) read

/-- A record comes from a draft with every property that its fields keep. -/
theorem of_reader
    (keeps : ∀ draft field value next, Holds draft → record.read draft field value = .ok next →
      Holds next)
    (start : Holds record.empty) {document : Document} {result : α}
    (read : record.reader document = .ok result) :
    ∃ missing draft, Holds draft ∧ record.finish missing draft = .ok result := by
  unfold reader at read
  split at read
  · split at read
    · cases read
    · next filled here =>
        split at read
        · exact ⟨_, filled, readMembers_keeps keeps start here, read⟩
        · cases read
  · split at read
    · cases read
    · next filled here =>
        split at read
        · exact ⟨_, filled, readItems_keeps keeps start here, read⟩
        · cases read
  · cases read

end RecordReader

end AppBundle.Json

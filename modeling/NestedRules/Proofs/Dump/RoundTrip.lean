import NestedRules.Dump.File
import NestedRules.Proofs.Json.WrittenValue

namespace NestedRules

open Json

mutual

theorem Node.numberFree_toJson : (n : Node) → n.toJson.NumberFree
  | .filter f => by simp [Node.toJson, Value.NumberFree, MembersNumberFree]
  | .group h cs => by
    simp [Node.toJson, Value.NumberFree, MembersNumberFree, Forest.numberFree_toJson cs]

theorem Forest.numberFree_toJson : (cs : Forest) → ItemsNumberFree (Forest.toJson cs)
  | [] => trivial
  | c :: cs => ⟨c.numberFree_toJson, Forest.numberFree_toJson cs⟩

end

namespace Dump

@[simp] theorem GroupField.ofKey?_key (f : GroupField) : ofKey? f.key = some f := by
  cases f <;> decide

@[simp] theorem FilterField.ofKey?_key (f : FilterField) : ofKey? f.key = some f := by
  cases f <;> decide

theorem nodeWord_string {α : Type} {ofWord? : String → Option α} {word : String} {a : α}
    (known : ofWord? word = some a) : nodeWord ofWord? (.string word) = .ok a := by
  simp [nodeWord, Value.asWordOver, known]

theorem FilterDraft.ofMembers_key (d : FilterDraft) (part : FilterField) (v : Value)
    (members : List (String × Value)) :
    d.ofMembers ((part.key, v) :: members) = (d.put part v >>= fun d => d.ofMembers members) := by
  rw [ofMembers, FilterField.ofKey?_key]

theorem readGroupMembers_key (d : GroupDraft) (part : GroupField) (v : Value)
    (members : List (String × Value)) :
    readGroupMembers d ((part.key, v) :: members) =
      (d.put part v fun _ => readChildren v) >>= fun d => readGroupMembers d members := by
  rw [readGroupMembers, GroupField.ofKey?_key]

theorem ofMembers_toJson {f : Filter} {members : List (String × Value)}
    (dump : (Node.filter f).toJson = .object members) :
    FilterDraft.ofMembers {} members =
      .ok ⟨some f.id, some f.field, some f.operator, some f.value, some f.isDisabled⟩ := by
  have type : FilterField.ofKey? "type" = none := by decide
  have field := nodeWord_string f.field.ofWord?_word
  have operator := nodeWord_string f.operator.ofWord?_word
  rw [Node.toJson] at dump
  obtain rfl := Value.object.inj dump
  rw [FilterDraft.ofMembers, type]
  change FilterDraft.ofMembers {} [(FilterField.id.key, _), (FilterField.field.key, _),
    (FilterField.operator.key, _), (FilterField.value.key, _), (FilterField.isDisabled.key, _)] = _
  simp only [FilterDraft.ofMembers_key, FilterDraft.put, once, field, operator]
  rfl

theorem readGroupMembers_toJson {h : Header} {cs : Forest} {members : List (String × Value)}
    (dump : (Node.group h cs).toJson = .object members)
    (children : readForest (Forest.toJson cs) = .ok cs) :
    readGroupMembers {} members =
      .ok ⟨some h.id, some h.name, some h.logic, some h.isLocked, some h.isDisabled,
        some h.isCollapsed, some cs⟩ := by
  have type : GroupField.ofKey? "type" = none := by decide
  have logic := nodeWord_string h.logic.ofWord?_word
  have read : readChildren (.array (Forest.toJson cs)) = .ok cs := by
    rw [readChildren, children]
  rw [Node.toJson] at dump
  obtain rfl := Value.object.inj dump
  rw [readGroupMembers, type]
  change readGroupMembers {} [(GroupField.id.key, _), (GroupField.name.key, _),
    (GroupField.logic.key, _), (GroupField.isLocked.key, _), (GroupField.isDisabled.key, _),
    (GroupField.isCollapsed.key, _), (GroupField.children.key, _)] = _
  simp only [readGroupMembers_key, GroupDraft.put, once, logic, read]
  rfl

mutual

theorem readNode_toJson : (n : Node) → readNode n.toJson = .ok n
  | .filter f => by
    have draft := ofMembers_toJson (f := f) (Node.toJson.eq_2 f)
    rw [Node.toJson, readNode, draft]
    rfl
  | .group h cs => by
    have draft := readGroupMembers_toJson (Node.toJson.eq_1 h cs) (readForest_toJson cs)
    rw [Node.toJson, readNode, draft]
    rfl

theorem readForest_toJson : (cs : Forest) → readForest (Forest.toJson cs) = .ok cs
  | [] => by simp [Forest.toJson, readForest]
  | c :: cs => by
    rw [Forest.toJson, readForest, readNode_toJson c, readForest_toJson cs]
    rfl

end

theorem checkRootKind_toJson (n : Node) : checkRootKind n.toJson = .ok () := by
  cases n <;> rfl

theorem ofJson_toJson (n : Node) : ofJson n.toJson = .ok n := by
  rw [ofJson, checkRootKind_toJson]
  exact readNode_toJson n

theorem exists_toJson_eq_object (n : Node) :
    ∃ members, n.toJson = .object (("type", .string n.kind.tag) :: members) ∧
      ∀ m ∈ members, m.1 ≠ "type" := by
  cases n with
  | group h cs => exact ⟨_, by rw [Node.toJson]; rfl, by simp⟩
  | filter f => exact ⟨_, by rw [Node.toJson]; rfl, by simp⟩

theorem parseNode_write (n : Node) {l : Layout} (proper : l.Proper) :
    parseNode (n.toJson.write l 0) = .ok n := by
  let s : Schema Mismatch Node := schema none id .ok
  obtain ⟨members, dump, others⟩ := exists_toJson_eq_object n
  have free : MembersNumberFree members := by
    have all := n.numberFree_toJson
    rw [dump] at all
    exact all.2
  have plain (before : List (String × Value)) : ∀ m ∈ members,
      s.memberSlot .plain before m.1 .top = .ok .plain := fun m member =>
    congrArg Schema.judge (if_pos (others m member))
  have kind : s.complete .checked (.member [] "type" .top) (.string n.kind.tag) =
      .ok ⟨.plain, .afterMember [("type", .string n.kind.tag)] .top⟩ := by
    simp only [s, Schema.complete, schema, namedKind, Kind.ofTag?_tag]
    rfl
  have finished : s.complete .plain .top n.toJson = .ok ⟨.plain, .done n⟩ := by
    simp only [s, Schema.complete, schema, ofJson_toJson]
    rfl
  rw [dump] at finished ⊢
  -- The kind of the root is judged on its own, before the members after it are there.
  have first := Schema.reaches_string n.kind.tag (by decide) kind
  have rest := Schema.reaches_writeMembers proper rfl members free 1 plain
    [("type", .string n.kind.tag)]
  refine Schema.read_of_reaches (Schema.reaches_object proper rfl rfl ?_ rest finished)
  rw [Value.write]
  exact first

theorem parse_write {r : Rule} (valid : r.Valid) {l : Layout} (proper : l.Proper) :
    parse (r.node.toJson.write l 0) = .ok r := by
  have accepted : Rule.ofNode r.node = .ok r := Rule.ofGroup_eq_ok_iff.mpr ⟨rfl, valid⟩
  rw [parse, parseNode_write r.node proper]
  change (Rule.ofNode r.node).mapError DumpError.invalid = .ok r
  rw [accepted]
  rfl

theorem ofFile_fileBytes {r : Rule} (valid : r.Valid) : ofFile (some (fileBytes r)) = .ok r := by
  have text : String.fromUTF8? r.pretty.toUTF8 = some r.pretty := by
    have encoded : r.pretty.toUTF8.IsValidUTF8 := r.pretty.isValidUTF8
    rw [String.fromUTF8?, dif_pos encoded]
    rfl
  have read : parse r.pretty = .ok r := parse_write valid Layout.proper_pretty
  simp only [ofFile, fileBytes, text, read]
  rfl

end Dump

namespace Rule

/-- Both layouts of a dump give a valid rule back. -/
theorem parse_written {r : Rule} (valid : r.Valid) :
    Dump.parse r.compact = .ok r ∧ Dump.parse r.pretty = .ok r :=
  ⟨Dump.parse_write valid Layout.proper_compact, Dump.parse_write valid Layout.proper_pretty⟩

/-- Texts with all that is escaped and much that is not; the root's id is empty. -/
def oddTexts : Rule :=
  ⟨⟨⟨"", "\"\\/\x00\x1f\x7f", .or, true, false, true⟩,
    [.group ⟨"\n\r\t", "", .and, false, true, false⟩
      [.filter ⟨"\x08\x0c", .newField, .isEmpty, "città 日本 😀", true⟩]]⟩⟩

theorem parse_written_oddTexts :
    oddTexts.Valid ∧ Dump.parse oddTexts.compact = .ok oddTexts ∧
      Dump.parse oddTexts.pretty = .ok oddTexts := by
  have valid : oddTexts.Valid := by
    rw [Valid, ids_eq_preorder]
    decide
  exact ⟨valid, parse_written valid⟩

end Rule

end NestedRules

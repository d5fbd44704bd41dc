import NestedRules.Proofs.Expression.Condition
import NestedRules.Proofs.Node.Around

namespace NestedRules

theorem Filter.text_ne_empty (f : Filter) : f.text ≠ "" := by
  rw [← text_ofFilter]
  exact Condition.text_ne_empty _

def Node.clauses (n : Node) : List String :=
  if n.expression false = "" then [] else [n.expression false]

theorem Node.clauses_of_ne_empty {n : Node} (speaks : n.expression false ≠ "") :
    n.clauses = [n.expression false] := if_neg speaks

theorem Node.expression_of_disabled {n : Node} (off : n.isDisabled = true) :
    n.expression false = "" := by
  cases n with
  | group h cs => exact if_pos off
  | filter f => exact if_pos off

theorem Forest.clauses_eq_flatMap (cs : Forest) : Forest.clauses cs = cs.flatMap Node.clauses := by
  induction cs with
  | nil => rfl
  | cons c cs ih =>
    rw [Forest.clauses, List.flatMap_cons, ← ih, Node.clauses]
    split <;> rfl

theorem exists_intercalate_cons (separator : String) (clauses : List String) :
    ∃ post, ∀ clause,
      separator.intercalate (clause :: clauses) = clause ++ post := by
  cases clauses with
  | nil => exact ⟨"", fun clause => by simp⟩
  | cons next more =>
    exact ⟨separator ++ separator.intercalate (next :: more), fun clause => by
      rw [String.intercalate_cons_cons, String.append_assoc]⟩

theorem exists_intercalate_append_cons (separator : String) (before after : List String) :
    ∃ pre post, ∀ clause,
      separator.intercalate (before ++ clause :: after) = pre ++ clause ++ post := by
  obtain ⟨post, first⟩ := exists_intercalate_cons separator after
  cases before with
  | nil => exact ⟨"", post, fun clause => by rw [List.nil_append, first, String.empty_append]⟩
  | cons head more =>
    refine ⟨separator.intercalate (head :: more) ++ separator, post, fun clause => ?_⟩
    rw [String.intercalate_append_of_ne_nil (List.cons_ne_nil _ _) (List.cons_ne_nil _ _), first,
      ← String.append_assoc]

theorem Logic.join_of_two_le {logic : Logic} {clauses : List String} (several : 2 ≤ clauses.length) :
    logic.join clauses =
      "(" ++ String.intercalate (" " ++ logic.word ++ " ") clauses ++ ")" := by
  match clauses, several with
  | _ :: _ :: _, _ => rfl

/-- Whatever a clause says, the clauses beside it say the same around it. -/
theorem Logic.exists_join_append_cons (logic : Logic) (before after : List String) :
    ∃ pre post, ∀ clause, logic.join (before ++ clause :: after) = pre ++ clause ++ post := by
  by_cases alone : before = [] ∧ after = []
  · obtain ⟨rfl, rfl⟩ := alone
    exact ⟨"", "", fun clause => by simp [join]⟩
  · have several (clause : String) : 2 ≤ (before ++ clause :: after).length := by
      rw [not_and_or, ← Ne, ← Ne, ← List.length_pos_iff_ne_nil, ← List.length_pos_iff_ne_nil] at alone
      simp only [List.length_append, List.length_cons]
      omega
    obtain ⟨pre, post, split⟩ :=
      exists_intercalate_append_cons (" " ++ logic.word ++ " ") before after
    refine ⟨"(" ++ pre, post ++ ")", fun clause => ?_⟩
    rw [join_of_two_le (several clause), split]
    simp only [String.append_assoc]

namespace Frame

def AllEnabled (frames : List Frame) : Prop := ∀ fr ∈ frames, fr.header.isDisabled = false

theorem allEnabled_cons {fr : Frame} {frames : List Frame} :
    AllEnabled (fr :: frames) ↔ fr.header.isDisabled = false ∧ AllEnabled frames :=
  List.forall_mem_cons

theorem not_allEnabled {frames : List Frame} :
    ¬ AllEnabled frames ↔ ∃ fr ∈ frames, fr.header.isDisabled = true := by
  simp [AllEnabled]

theorem expression_fill (fr : Frame) (n : Node) :
    (fr.fill n).toNode.expression false =
      if fr.header.isDisabled then ""
      else fr.header.logic.join
        (Forest.clauses fr.before ++ (n.clauses ++ Forest.clauses fr.after)) := by
  simp [Group.toNode, fill, Node.expression, Forest.clauses_eq_flatMap]

theorem expression_close (fr : Frame) {n : Node} (silent : n.expression false = "") :
    fr.close.toNode.expression false = (fr.fill n).toNode.expression false := by
  have none : n.clauses = [] := if_pos silent
  rw [expression_fill, none, List.nil_append]
  simp [close, Group.toNode, Node.expression, Forest.clauses_eq_flatMap]

theorem expression_around_congr (frames : List Frame) {n m : Node}
    (same : n.expression false = m.expression false) :
    (around frames n).expression false = (around frames m).expression false := by
  induction frames with
  | nil => exact same
  | cons fr inner ih => rw [around, around, expression_fill, expression_fill, Node.clauses,
      Node.clauses, ih]

theorem expression_around_of_disabled {frames : List Frame}
    (off : ∃ fr ∈ frames, fr.header.isDisabled = true) (n m : Node) :
    (around frames n).expression false = (around frames m).expression false := by
  induction frames with
  | nil =>
    obtain ⟨fr, member, -⟩ := off
    cases member
  | cons fr inner ih =>
    obtain ⟨other, member, isOff⟩ := off
    rcases List.mem_cons.mp member with rfl | deeper
    · simp [around, expression_fill, isOff]
    · exact expression_around_congr [fr] (ih ⟨other, deeper, isOff⟩)

/-- Under enabled groups a node that says something is heard word for word. -/
theorem expression_around {frames : List Frame} (enabled : AllEnabled frames) :
    ∃ pre post, ∀ n : Node, n.expression false ≠ "" →
      (around frames n).expression false = pre ++ n.expression false ++ post := by
  induction frames with
  | nil => exact ⟨"", "", fun n _ => by simp [around]⟩
  | cons fr inner ih =>
    obtain ⟨isOn, deeper⟩ := allEnabled_cons.mp enabled
    obtain ⟨pre, post, heard⟩ := ih deeper
    obtain ⟨front, back, joined⟩ := fr.header.logic.exists_join_append_cons
      (Forest.clauses fr.before) (Forest.clauses fr.after)
    refine ⟨front ++ pre, post ++ back, fun n speaks => ?_⟩
    have inside := heard n speaks
    have within : (around inner n).expression false ≠ "" := by simp [inside, speaks]
    rw [around, expression_fill, isOn, Node.clauses_of_ne_empty within, List.singleton_append,
      if_neg Bool.false_ne_true, joined, inside]
    simp only [String.append_assoc]

theorem expression_around_ne_empty {frames : List Frame} {n : Node} (enabled : AllEnabled frames)
    (speaks : n.expression false ≠ "") : (around frames n).expression false ≠ "" := by
  obtain ⟨pre, post, heard⟩ := expression_around enabled
  simp [heard n speaks, speaks]

end Frame

/-- Where a tree says something, one of its filters is enabled, and so are all groups around it. -/
theorem Node.exists_heard_filter {n : Node} (speaks : n.expression false ≠ "") :
    ∃ frames f, Frame.around frames (.filter f) = n ∧ Frame.AllEnabled frames ∧
      f.isDisabled = false := by
  induction n with
  | filter f =>
    refine ⟨[], f, rfl, by simp [Frame.AllEnabled], ?_⟩
    cases off : f.isDisabled with
    | false => rfl
    | true => simp [expression, off] at speaks
  | group h cs ih =>
    have isOn : h.isDisabled = false := by
      cases off : h.isDisabled with
      | false => rfl
      | true => simp [expression, off] at speaks
    obtain ⟨c, member, voice⟩ : ∃ c ∈ cs, c.expression false ≠ "" := by
      by_contra silent
      simp only [not_exists, not_and, not_not] at silent
      have none : Forest.clauses cs = [] := by
        rw [Forest.clauses_eq_flatMap, List.flatMap_eq_nil_iff]
        exact fun c member => if_pos (silent c member)
      simp [expression, none, Logic.join] at speaks
    obtain ⟨before, after, rfl⟩ := List.append_of_mem member
    obtain ⟨frames, f, rfl, enabled, alive⟩ := ih c member voice
    exact ⟨⟨h, before, after⟩ :: frames, f, rfl, Frame.allEnabled_cons.mpr ⟨isOn, enabled⟩, alive⟩

end NestedRules

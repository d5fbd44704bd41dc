import NestedRules.Proofs.Dump.Companion

namespace NestedRules

open Json

namespace Json.Schema

variable {ε α : Type} {s : Schema ε α}

theorem run_done (slot : Slot) (result : α) (cs : List Char) :
    cs.foldlM s.step ⟨slot, .done result⟩ =
      if cs.all isBlank then .ok ⟨slot, .done result⟩ else .error .malformed := by
  induction cs with
  | nil => rfl
  | cons c cs ih =>
    rw [List.foldlM_cons, List.all_cons]
    by_cases blank : isBlank c = true
    · rw [step_of_blank (r := ⟨slot, .done result⟩) trivial blank, blank, Bool.true_and]
      exact ih
    · have token : isBlank c = false := Bool.not_eq_true _ ▸ blank
      rw [step_of_token (r := ⟨slot, .done result⟩) trivial token, token]
      simp only [stepToken, settled, token]
      rfl

theorem exists_reaches_of_append {r t : Reader α} {cs ds : List Char}
    (reaches : s.Reaches r (cs ++ ds) t) : ∃ u, s.Reaches r cs u ∧ s.Reaches u ds t := by
  rw [Reaches, List.foldlM_append] at reaches
  exact bind_eq_ok_iff.mp reaches

theorem close_of_open {slot : Slot} {p : Phase α} (past : ∀ result, p ≠ .done result)
    (number : ∀ around n, p ≠ .numeral around n) : s.close ⟨slot, p⟩ = .error .truncated := by
  cases p with
  | done result => exact absurd rfl (past result)
  | numeral around n => exact absurd rfl (number around n)
  | _ => rfl

end Json.Schema

namespace Dump

variable {n : Node} {l : Layout}

theorem reaches_toJson (n : Node) (proper : l.Proper) :
    anyValue.Reaches Schema.start (n.toJson.write l 0).toList ⟨.plain, .done n.toJson⟩ :=
  (Schema.reaches_of_parse (Value.parse_write n.numberFree_toJson proper)).resolve_right
    fun number => number.not_numberFree n.numberFree_toJson

theorem reaches_dump (n : Node) (proper : l.Proper) :
    (schema none id .ok).Reaches Schema.start (n.toJson.write l 0).toList ⟨.plain, .done n⟩ := by
  have both := abreast_run id .ok (n.toJson.write l 0).toList follows_start
  rw [reaches_toJson n proper] at both
  exact both.exists_leader (finish_eq_ok_iff.mpr ⟨n, ofJson_toJson n, rfl⟩)

theorem parseNode_write_append (n : Node) (proper : l.Proper) (x : String) :
    parseNode (n.toJson.write l 0 ++ x) =
      if x.toList.all isBlank then .ok n else .error .malformed := by
  rw [parseNode, Schema.read, String.toList_append, List.foldlM_append, reaches_dump n proper]
  change (x.toList.foldlM _ _ >>= _) = _
  rw [Schema.run_done]
  split <;> rfl

theorem exists_write_toJson (n : Node) (l : Layout) : ∃ body, n.toJson.write l 0 = body ++ "\x7d" := by
  obtain ⟨members, dump, -⟩ := exists_toJson_eq_object n
  rw [dump, Value.write]
  exact ⟨_, rfl⟩

theorem parseNode_cut (proper : l.Proper) {cut rest : String}
    (split : n.toJson.write l 0 = cut ++ rest) (short : rest ≠ "") :
    parseNode cut = .error .truncated := by
  have whole := reaches_toJson n proper
  have judged := reaches_dump n proper
  have more : rest.toList ≠ [] := fun none => short (String.toList_eq_nil_iff.mp none)
  have brace : '\x7d' ∈ rest.toList := by
    obtain ⟨body, ends⟩ := exists_write_toJson n l
    have same : cut.toList ++ rest.toList = body.toList ++ ['\x7d'] := by
      rw [← String.toList_append, ← split, ends, String.toList_append]
      rfl
    have last := congrArg List.getLast? same
    rw [List.getLast?_append, List.getLast?_eq_some_getLast more, Option.some_or,
      List.getLast?_concat] at last
    exact Option.some.inj last ▸ List.getLast_mem more
  rw [split, String.toList_append] at whole judged
  obtain ⟨⟨slot', q⟩, reached', onward⟩ := Schema.exists_reaches_of_append whole
  obtain ⟨⟨slot, p⟩, reached, -⟩ := Schema.exists_reaches_of_append judged
  obtain ⟨rfl, -⟩ := Schema.outlook_reaches n.toJson reached'
  have back := (Schema.outlook_reaches n.toJson onward).2 rfl
  have both := abreast_run id .ok cut.toList follows_start
  rw [reached, reached'] at both
  obtain ⟨r', same, follows⟩ := both.exists_follows
  cases same
  -- The brace that ends the dump is still to come, so the value is not over yet.
  have past (v : Value) : q ≠ .done v := by
    rintro rfl
    rw [Schema.Reaches, Schema.run_done] at onward
    split at onward
    · rename_i blank
      exact absurd (List.all_eq_true.mp blank _ brace) (by decide)
    · cases onward
  have number (around : Context) (numeral : Numeral) : q ≠ .numeral around numeral := by
    rintro rfl
    obtain ⟨v, number, fits⟩ := back
    exact number.not_numberFree (fits.numberFree n.numberFree_toJson)
  rw [parseNode, Schema.read, reached]
  refine Schema.close_of_open (fun result done => ?_) fun around numeral inNumber => ?_
  · subst done
    obtain ⟨v, same, -⟩ := follows.exists_done
    cases same
    exact past v rfl
  · subst inNumber
    cases follows with
    | plain twin =>
      cases twin
      exact number around numeral rfl
    | kind place within twin =>
      cases twin
      exact number around numeral rfl

theorem parse_cut (proper : l.Proper) {cut rest : String}
    (split : n.toJson.write l 0 = cut ++ rest) (short : rest ≠ "") :
    parse cut = .error (.json .truncated) := by
  rw [parse, parseNode_cut proper split short]
  rfl

theorem parse_write_append {r : Rule} (valid : r.Valid) (proper : l.Proper) (x : String) :
    parse (r.node.toJson.write l 0 ++ x) =
      if x.toList.all isBlank then .ok r else .error (.json .malformed) := by
  have accepted : Rule.ofNode r.node = .ok r := Rule.ofGroup_eq_ok_iff.mpr ⟨rfl, valid⟩
  rw [parse, parseNode_write_append r.node proper]
  split
  · change (Rule.ofNode r.node).mapError DumpError.invalid = .ok r
    rw [accepted]
    rfl
  · rfl

end Dump

namespace Rule

theorem all_isBlank_iff {cs : List Char} :
    cs.all isBlank = true ↔ ∀ c ∈ cs, c ∈ [' ', '\t', '\n', '\r'] := by
  simp [isBlank, or_assoc]

/-- A dump tells by itself where it ends. Cut off anywhere, it ended too early; with blanks after it,
    it is the same dump, and with anything else no JSON. -/
theorem parse_delimited {r : Rule} (valid : r.Valid) : ∀ dump ∈ [r.compact, r.pretty],
    (∀ cut rest : String, dump = cut ++ rest → rest ≠ "" →
      Dump.parse cut = .error (.json .truncated)) ∧
    (∀ x : String, (∀ c ∈ x.toList, c ∈ [' ', '\t', '\n', '\r']) →
      Dump.parse (dump ++ x) = .ok r) ∧
    ∀ x : String, (∃ c ∈ x.toList, c ∉ [' ', '\t', '\n', '\r']) →
      Dump.parse (dump ++ x) = .error (.json .malformed) := by
  intro dump member
  obtain ⟨l, proper, rfl⟩ : ∃ l : Layout, l.Proper ∧ dump = r.node.toJson.write l 0 := by
    obtain rfl | rfl : dump = r.compact ∨ dump = r.pretty := by simpa using member
    · exact ⟨.compact, Layout.proper_compact, rfl⟩
    · exact ⟨.pretty, Layout.proper_pretty, rfl⟩
  refine ⟨fun cut rest => Dump.parse_cut proper, fun x blank => ?_, fun x more => ?_⟩
  · rw [Dump.parse_write_append valid proper, if_pos (all_isBlank_iff.mpr blank)]
  · obtain ⟨c, member, token⟩ := more
    have other : ¬ x.toList.all isBlank = true := fun blank =>
      token (all_isBlank_iff.mp blank c member)
    rw [Dump.parse_write_append valid proper, if_neg other]

theorem parse_delimited_oddTexts :
    oddTexts.Valid ∧
      (∃ cut, cut ++ "\x7d" = oddTexts.compact ∧ Dump.parse cut = .error (.json .truncated)) ∧
      Dump.parse (oddTexts.pretty ++ " \n") = .ok oddTexts ∧
      Dump.parse (oddTexts.pretty ++ " \x7b") = .error (.json .malformed) := by
  have valid : oddTexts.Valid := by
    rw [Valid, ids_eq_preorder]
    decide
  obtain ⟨cut, ends⟩ := Dump.exists_write_toJson oddTexts.node .compact
  obtain ⟨cutOff, -, -⟩ := parse_delimited valid oddTexts.compact (by simp)
  obtain ⟨-, blank, other⟩ := parse_delimited valid oddTexts.pretty (by simp)
  exact ⟨valid, ⟨cut, ends.symm, cutOff cut "\x7d" ends (by decide)⟩,
    blank " \n" (all_isBlank_iff.mp (by decide)), other " \x7b" ⟨'\x7b', by decide, by decide⟩⟩

end Rule

end NestedRules

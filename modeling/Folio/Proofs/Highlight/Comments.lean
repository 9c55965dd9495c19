import Mathlib.Tactic
import Folio.Proofs.Highlight.LineFeeds

/-!
What the patterns of comments match at a place: the whole rest of the line behind one mark
(`Highlight.end?_lineComment`), and everything up to the first closing mark behind the other
(`Highlight.end?_commentBody_of_mark`, `Highlight.end?_commentBody_cons`).
-/

namespace Folio

open Text

namespace Highlight

variable {pre mid post rest : List Char}

/-! ### Comments to the end of a line -/

lemma end?_lineComment (pre rest : List Char) :
    lineComment.end? (.between pre (['/', '/'] ++ rest))
      = some (.between (pre ++ ['/', '/'] ++ rest.takeWhile (· != '\n'))
          (rest.dropWhile (· != '\n'))) :=
  Pattern.end?_seq (Pattern.end?_literal pre ['/', '/'] rest)
    (Pattern.end?_seq (Pattern.end?_greedy _ _ _) rfl)

/-- A comment to the end of its line starts with its mark, has no line feed, and stops before one or
at the end of the text. It could match less, but then it would not be the preferred match. -/
lemma exists_of_end?_lineComment
    (hend : lineComment.end? (.between pre (mid ++ post)) = some (.between (pre ++ mid) post)) :
    ∃ body, mid = ['/', '/'] ++ body ∧ '\n' ∉ mid ∧ ∀ x ∈ post.head?, x = '\n' := by
  obtain ⟨m₁, body, rfl, rfl, m₂, m₃, rfl, hbody, rfl⟩ := Pattern.matches_of_end? hend
  refine ⟨m₂ ++ [], rfl, fun hmem => ?_, fun x hx => ?_⟩
  · simp only [List.append_nil, List.cons_append, List.nil_append, List.mem_cons] at hmem
    rcases hmem with heq | heq | hmem
    · exact absurd heq (by decide)
    · exact absurd heq (by decide)
    · exact absurd (hbody '\n' hmem) (by simp)
  · rw [List.append_assoc, end?_lineComment] at hend
    have hpost : (m₂ ++ [] ++ post).dropWhile (· != '\n') = post :=
      congrArg Cursor.rest (Option.some.inj hend)
    have hstop := List.head?_dropWhile_not (· != '\n') (m₂ ++ [] ++ post)
    rw [hpost, Option.mem_def.1 hx] at hstop
    simpa using hstop

/-! ### Comments between marks -/

lemma matches_blockComment_iff : blockComment.Matches pre mid post ↔
    ∃ body closing, mid = ['/', '*'] ++ (body ++ closing) ∧
      (closing = ['*', '/'] ∨ closing = [] ∧ post = []) := by
  constructor
  · rintro ⟨m₁, m₂, rfl, rfl, body, m₃, rfl, -, closing, m₄, rfl, hclosing, rfl⟩
    refine ⟨body, closing, by simp, ?_⟩
    simpa [Pattern.Matches] using hclosing
  · rintro ⟨body, closing, rfl, hclosing⟩
    refine ⟨['/', '*'], _, rfl, rfl, body, closing, rfl, fun _ _ => rfl, closing, [],
      (List.append_nil closing).symm, ?_, rfl⟩
    simpa [Pattern.Matches] using hclosing

/-- A comment behind its opening mark. -/
def commentBody : Pattern :=
  .inOrder [.reluctant fun _ => true, .alt (.literal ['*', '/']) .textEnd]

/-- Behind its opening mark, a comment prefers what its body prefers. -/
lemma end?_blockComment (pre rest : List Char) :
    blockComment.end? (.between pre (['/', '*'] ++ rest))
      = commentBody.end? (.between (pre ++ ['/', '*']) rest) := by
  have hmark : (Pattern.literal ['/', '*']).ends (.between pre (['/', '*'] ++ rest))
      = [.between (pre ++ ['/', '*']) rest] := by
    rw [Pattern.ends, Cursor.skip?_between_eq_some_iff.2 ⟨rest, rfl, rfl⟩]
    rfl
  rw [Pattern.end?, Pattern.end?, blockComment, Pattern.inOrder, List.foldr_cons, Pattern.ends,
    hmark, List.flatMap_singleton]
  rfl

/-- Before a character, a comment may end behind a closing mark there, or else as it may end behind
that character. -/
lemma ends_commentBody_cons (pre : List Char) (x : Char) (rest : List Char) :
    commentBody.ends (.between pre (x :: rest))
      = ((Cursor.between pre (x :: rest)).skip? ['*', '/']).toList ++
          commentBody.ends (.between (pre ++ [x]) rest) := by
  have hstops : Cursor.stops (fun _ => true) (byteCount pre) pre.getLast? (x :: rest)
      = .between pre (x :: rest) ::
          Cursor.stops (fun _ => true) (byteCount (pre ++ [x])) (pre ++ [x]).getLast? rest :=
    Cursor.stops_between_cons (fun _ => true) pre x rest
  have hhere : (Pattern.inOrder [.alt (.literal ['*', '/']) .textEnd]).ends
      (.between pre (x :: rest)) = ((Cursor.between pre (x :: rest)).skip? ['*', '/']).toList := by
    simp [Pattern.inOrder, Pattern.ends]
  calc commentBody.ends (.between pre (x :: rest))
      = (Cursor.stops (fun _ => true) (byteCount pre) pre.getLast? (x :: rest)).flatMap
          (Pattern.inOrder [.alt (.literal ['*', '/']) .textEnd]).ends := rfl
    _ = _ := by rw [hstops, List.flatMap_cons, hhere]; rfl

/-- A comment ends behind its first closing mark. -/
lemma end?_commentBody_of_mark (pre post : List Char) :
    commentBody.end? (.between pre (['*', '/'] ++ post))
      = some (.between (pre ++ ['*', '/']) post) := by
  have hmark : (Cursor.between pre (['*', '/'] ++ post)).skip? ['*', '/']
      = some (.between (pre ++ ['*', '/']) post) :=
    Cursor.skip?_between_eq_some_iff.2 ⟨post, rfl, rfl⟩
  rw [List.cons_append] at hmark ⊢
  rw [Pattern.end?, ends_commentBody_cons, hmark]
  rfl

/-- Before a character that does not start a closing mark, a comment goes on. -/
lemma end?_commentBody_cons {x : Char} (h : ¬ ['*', '/'] <+: x :: rest) :
    commentBody.end? (.between pre (x :: rest))
      = commentBody.end? (.between (pre ++ [x]) rest) := by
  have hnone : (Cursor.between pre (x :: rest)).skip? ['*', '/'] = none := by
    rw [Option.eq_none_iff_forall_ne_some]
    intro d hd
    obtain ⟨post, hpost, -⟩ := Cursor.skip?_between_eq_some_iff.1 hd
    exact h ⟨post, hpost.symm⟩
  rw [Pattern.end?, ends_commentBody_cons, hnone]
  rfl

/-- A comment starts at every opening mark, since it may run to the end of the text, and nowhere
else. -/
lemma missesAt_blockComment_iff : blockComment.MissesAt pre rest ↔ ¬ ['/', '*'] <+: rest := by
  constructor
  · rintro hmiss ⟨tail, rfl⟩
    have hmatches : blockComment.Matches pre (['/', '*'] ++ tail) [] :=
      matches_blockComment_iff.2 ⟨tail, [], by rw [List.append_nil], .inr ⟨rfl, rfl⟩⟩
    obtain ⟨d, hd⟩ := Pattern.exists_end?_of_matches hmatches
    rw [List.append_nil] at hd
    obtain ⟨mid, post, htext, hmatches', rfl⟩ := Pattern.exists_matches_of_end? hd
    obtain ⟨body, closing, rfl, -⟩ := matches_blockComment_iff.1 hmatches'
    exact hmiss _ post (by simp) htext hd
  · intro hmark mid post hne htext hend
    rw [htext] at hend
    obtain ⟨body, closing, rfl, -⟩ := matches_blockComment_iff.1 (Pattern.matches_of_end? hend)
    exact hmark ⟨body ++ closing ++ post, by simp [htext]⟩

end Highlight

end Folio

import Mathlib.Logic.ExistsUnique
import Resemblance.Comment
import Resemblance.Proofs.Text.Enclosed

/-!
# Block comments

Each kind of block is removed by a pass of its own, which leaves the plain text
of the one leftmost decomposition.  An opener without a closer behind its last
character removes nothing, and what stood on the two sides of a removed block
is never searched as one text.
-/

namespace Resemblance.CommentStyle

open Text

theorem block_pass_keeps_plain
    {style : CommentStyle} {o k : List Char}
    (hblock : (o, k) ∈ style.blocks)
    (t : List Char) :
    (∃! d : Decomposition, d.IsLeftmost o k t) ∧
    (∀ d : Decomposition, d.IsLeftmost o k t →
      (Pattern.enclosed o k).replace [] t = d.plain) ∧
    (∀ u r, t = u ++ o ++ r → OnlyAtEnd o u → ¬ k <:+: r →
      (Pattern.enclosed o k).replace [] t = t) ∧
    (∀ u m s, t = u ++ o ++ m ++ k ++ s → OnlyAtEnd o u → OnlyAtEnd k m →
      (Pattern.enclosed o k).replace [] t =
        u ++ (Pattern.enclosed o k).replace [] s) := by
  rcases delimiters_of_mem_blocks hblock with ⟨ho, hk, -⟩
  refine ⟨?_, ?_, ?_, ?_⟩
  · rcases Decomposition.exists_isLeftmost (k := k) ho t with ⟨d, hd⟩
    exact ⟨d, hd, fun _ hd' => hd'.unique hd⟩
  · intro d hd
    exact Pattern.replace_enclosed_eq_plain ho hk hd
  · rintro u r rfl hu hopen
    apply Pattern.replace_enclosed_of_no_block
    intro p m s h
    exact hopen (hu.closer_behind h)
  · rintro u m s rfl hu hm
    simpa using Pattern.replace_enclosed_block [] ho hk hu hm s

/-- The slash before the first block and the star behind it do not make an
opener, and an opener does not share its star with a closer.  Of four quotes the
first three open a block, and of five behind its text the first three close it;
five quotes alone are left as they are. -/
theorem block_pass_on_overlaps :
    (['/', '*'], ['*', '/']) ∈ cStyle.blocks ∧
    (∃! d : Decomposition,
      d.IsLeftmost ['/', '*'] ['*', '/'] "//**/* y */".toList) ∧
    cStyle.removeBlocks "//**/* y */".toList = "/* y */".toList ∧
    cStyle.removeBlocks "/*/".toList = "/*/".toList ∧
    (['"', '"', '"'], ['"', '"', '"']) ∈ hash.blocks ∧
    (∃! d : Decomposition,
      d.IsLeftmost ['"', '"', '"'] ['"', '"', '"']
        "\"\"\"\"a\"\"\"\"\"".toList) ∧
    (Pattern.enclosed ['"', '"', '"'] ['"', '"', '"']).replace []
        "\"\"\"\"a\"\"\"\"\"".toList =
      "\"\"".toList ∧
    (Pattern.enclosed ['"', '"', '"'] ['"', '"', '"']).replace []
        "\"\"\"\"\"".toList =
      "\"\"\"\"\"".toList := by
  have hblock : (['/', '*'], ['*', '/']) ∈ cStyle.blocks := by simp [blocks]
  rcases block_pass_keeps_plain hblock "//**/* y */".toList with
    ⟨hunique, -, -, hbehind⟩
  rcases block_pass_keeps_plain hblock "/*/".toList with ⟨-, -, hopen, -⟩
  have hslash : OnlyAtEnd ['/', '*'] ['/'] :=
    onlyAtEnd_cons (by simp) (onlyAtEnd_nil _)
  have hrest : (Pattern.enclosed ['/', '*'] ['*', '/']).replace []
      "* y */".toList = "* y */".toList := by decide
  have hquotes : (['"', '"', '"'], ['"', '"', '"']) ∈ hash.blocks := by
    simp [blocks]
  rcases block_pass_keeps_plain hquotes "\"\"\"\"a\"\"\"\"\"".toList with
    ⟨hunique', -, -, hbehind'⟩
  rcases block_pass_keeps_plain hquotes "\"\"\"\"\"".toList with
    ⟨-, -, hopen', -⟩
  have hinside : OnlyAtEnd ['"', '"', '"'] ['"', 'a'] :=
    onlyAtEnd_cons (by simp) (onlyAtEnd_cons (by simp) (onlyAtEnd_nil _))
  have hrest' : (Pattern.enclosed ['"', '"', '"'] ['"', '"', '"']).replace []
      ['"', '"'] = ['"', '"'] := by decide
  refine ⟨hblock, hunique, ?_,
    hopen [] ['/'] rfl (onlyAtEnd_nil _) (by decide), hquotes, hunique', ?_,
    hopen' [] ['"', '"'] rfl (onlyAtEnd_nil _) (by decide)⟩
  · calc cStyle.removeBlocks "//**/* y */".toList
        = ['/'] ++ (Pattern.enclosed ['/', '*'] ['*', '/']).replace []
            "* y */".toList :=
          hbehind ['/'] [] "* y */".toList rfl hslash (onlyAtEnd_nil _)
      _ = "/* y */".toList := by
          rw [hrest]
          rfl
  · calc (Pattern.enclosed ['"', '"', '"'] ['"', '"', '"']).replace []
            "\"\"\"\"a\"\"\"\"\"".toList
        = [] ++ (Pattern.enclosed ['"', '"', '"'] ['"', '"', '"']).replace []
            ['"', '"'] :=
          hbehind' [] ['"', 'a'] ['"', '"'] rfl (onlyAtEnd_nil _) hinside
      _ = "\"\"".toList := by
          rw [hrest']
          rfl

end Resemblance.CommentStyle

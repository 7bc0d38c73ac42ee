import Resemblance.Proofs.Text.Match
import Resemblance.Text.Words

/-!
# Texts of the same layout

Two texts have the same layout if they agree up to the length and kind of their
runs of blanks, as long as a run holds a line feed in both or in neither.  A
pass whose matches start and end at characters that are not blank, or that
extends to a line feed, takes texts of the same layout to such texts again, and
texts of the same layout have the same words.
-/

namespace Resemblance.Text

/-- Every longest run of characters of one class becomes the one character that
stands for it. -/
def squeezeRuns
    (belongs : Char → Bool) (mark : List Char → Char) : List Char → List Char
  | [] => []
  | c :: rest =>
    if belongs c then
      mark (c :: rest.takeWhile belongs) ::
        squeezeRuns belongs mark (rest.dropWhile belongs)
    else c :: squeezeRuns belongs mark rest
termination_by t => t.length
decreasing_by
  · simp only [List.length_cons]
    exact Nat.lt_succ_of_le (List.dropWhile_suffix belongs).length_le
  · simp

def blankMark (run : List Char) : Char := if '\n' ∈ run then '\n' else ' '

/-- Every longest run of blanks becomes one line feed if it holds one, and one
space if not. -/
def squeeze (t : List Char) : List Char := squeezeRuns isBlank blankMark t

/-- The runs `r` and `r'` need not be the longest ones, so the relation can be
cut anywhere. -/
inductive SameLayout : List Char → List Char → Prop where
  | nil : SameLayout [] []
  | char {c : Char} {t u : List Char} (hc : isBlank c = false)
    (h : SameLayout t u) :
      SameLayout (c :: t) (c :: u)
  | blanks {r r' t u : List Char} (hr : ∀ c ∈ r, isBlank c = true)
      (hr' : ∀ c ∈ r', isBlank c = true) (hne : r ≠ []) (hne' : r' ≠ [])
      (hline : '\n' ∈ r ↔ '\n' ∈ r') (h : SameLayout t u) :
      SameLayout (r ++ t) (r' ++ u)

theorem SameLayout.append_left
    {t u : List Char}
    (h : SameLayout t u)
    (s : List Char) :
    SameLayout (s ++ t) (s ++ u) := by
  induction s with
  | nil => exact h
  | cons c s ih =>
      by_cases hc : isBlank c = true
      · have hr : ∀ d ∈ [c], isBlank d = true := by
          intro d hd
          rwa [List.mem_singleton.1 hd]
        have hne := List.cons_ne_nil c []
        have hlayout : SameLayout ([c] ++ (s ++ t)) ([c] ++ (s ++ u)) :=
          SameLayout.blanks hr hr hne hne Iff.rfl ih
        exact hlayout
      · exact SameLayout.char (Bool.eq_false_iff.2 hc) ih

theorem isBlank_blankMark (run : List Char) :
    isBlank (blankMark run) = true := by
  unfold blankMark
  split <;> decide

theorem line_mem_blankMark_iff (run : List Char) :
    '\n' ∈ run ↔ '\n' ∈ [blankMark run] := by
  unfold blankMark
  by_cases hline : '\n' ∈ run <;> simp [hline]

theorem all_blank_takeWhile (t : List Char) :
    ∀ c ∈ t.takeWhile isBlank, isBlank c = true :=
  List.all_eq_true.1 List.all_takeWhile

theorem sameLayout_squeeze (t : List Char) : SameLayout t (squeeze t) := by
  unfold squeeze
  induction t using squeezeRuns.induct isBlank with
  | case1 =>
      rw [squeezeRuns]
      exact SameLayout.nil
  | case2 c rest hc ih =>
      rw [squeezeRuns, if_pos hc]
      have hsplit : c :: rest =
          (c :: rest.takeWhile isBlank) ++ rest.dropWhile isBlank := by
        rw [List.cons_append, List.takeWhile_append_dropWhile]
      have hrun : ∀ d ∈ c :: rest.takeWhile isBlank, isBlank d = true := by
        intro d hd
        rcases List.mem_cons.1 hd with rfl | hd
        · exact hc
        · exact all_blank_takeWhile rest d hd
      have hmark : ∀ d ∈ [blankMark (c :: rest.takeWhile isBlank)],
          isBlank d = true := by
        intro d hd
        rw [List.mem_singleton.1 hd]
        exact isBlank_blankMark _
      have hlayout := SameLayout.blanks hrun hmark (List.cons_ne_nil _ _)
        (List.cons_ne_nil _ _) (line_mem_blankMark_iff _) ih
      rwa [← hsplit] at hlayout
  | case3 c rest hc ih =>
      rw [squeezeRuns, if_neg hc]
      exact SameLayout.char (Bool.eq_false_iff.2 hc) ih

section Words

theorem SameLayout.takeWhile_eq
    {t u : List Char}
    (h : SameLayout t u) :
    t.takeWhile (!isBlank ·) = u.takeWhile (!isBlank ·) := by
  induction h with
  | nil => rfl
  | char hc _ ih => rw [List.takeWhile_cons, List.takeWhile_cons, hc, ih]
  | @blanks r r' t u hr hr' hne hne' _ _ _ =>
      obtain ⟨c, r, rfl⟩ := List.exists_cons_of_ne_nil hne
      obtain ⟨c', r', rfl⟩ := List.exists_cons_of_ne_nil hne'
      simp [hr c List.mem_cons_self, hr' c' List.mem_cons_self]

theorem SameLayout.dropWhile
    {t u : List Char}
    (h : SameLayout t u) :
    SameLayout (t.dropWhile (!isBlank ·)) (u.dropWhile (!isBlank ·)) := by
  induction h with
  | nil => exact SameLayout.nil
  | char hc _ ih => simpa [List.dropWhile_cons, hc] using ih
  | @blanks r r' t u hr hr' hne hne' hline h _ =>
      obtain ⟨c, r, rfl⟩ := List.exists_cons_of_ne_nil hne
      obtain ⟨c', r', rfl⟩ := List.exists_cons_of_ne_nil hne'
      simpa [List.dropWhile_cons, hr c List.mem_cons_self,
        hr' c' List.mem_cons_self]
        using SameLayout.blanks hr hr' hne hne' hline h

theorem words_append_of_blank
    {r : List Char}
    (hr : ∀ c ∈ r, isBlank c = true)
    (t : List Char) :
    words (r ++ t) = words t := by
  induction r with
  | nil => rfl
  | cons c r ih =>
      have hc := hr c List.mem_cons_self
      rw [← ih fun d hd => hr d (List.mem_cons_of_mem c hd)]
      simp [words, Pattern.findAll, Pattern.findAllFrom, Pattern.run, hc]

theorem words_cons_of_not_blank
    {c : Char}
    (hc : isBlank c = false)
    (t : List Char) :
    words (c :: t) =
      (c :: t.takeWhile (!isBlank ·)) :: words (t.dropWhile (!isBlank ·)) := by
  have hrun : (c :: t).takeWhile (!isBlank ·) =
      c :: t.takeWhile (!isBlank ·) := by
    simp [hc]
  have htake : (c :: t).take (t.takeWhile (!isBlank ·)).length.succ =
      c :: t.takeWhile (!isBlank ·) := by
    rw [Nat.succ_eq_add_one, List.take_succ_cons,
      ← List.prefix_iff_eq_take.1 (List.takeWhile_prefix _)]
  unfold words Pattern.findAll
  rw [Pattern.findAllFrom]
  simp only [Pattern.run, hrun, List.length_cons]
  rw [Pattern.findAllFrom_eq_drop, drop_length_takeWhile]
  exact congrArg (· :: _) htake

theorem SameLayout.words_eq
    {t u : List Char}
    (h : SameLayout t u) :
    words t = words u := by
  induction hn : t.length using Nat.strongRecOn generalizing t u with
  | ind n ih =>
      cases h with
      | nil => rfl
      | @char c t u hc h =>
          have hlength : (t.dropWhile (!isBlank ·)).length < n := by
            have hle := (List.dropWhile_suffix (!isBlank ·) (l := t)).length_le
            simp only [List.length_cons] at hn
            omega
          rw [words_cons_of_not_blank hc, words_cons_of_not_blank hc,
            h.takeWhile_eq, ih _ hlength h.dropWhile rfl]
      | @blanks r r' t u hr hr' hne hne' hline h =>
          have hpositive := List.length_pos_iff.2 hne
          have hlength : t.length < n := by
            simp only [List.length_append] at hn
            omega
          rw [words_append_of_blank hr, words_append_of_blank hr',
            ih _ hlength h rfl]

end Words

section Passes

namespace Pattern

/-- A change of layout moves the matches of the pattern and neither makes nor
breaks one. -/
structure LayoutBlind (q : Pattern) : Prop where
  blank : ∀ {c : Char} (t : List Char), isBlank c = true →
    q.matchLength (c :: t) = 0
  matched : ∀ {t u : List Char}, SameLayout t u →
    (q.matchLength t = 0 ∧ q.matchLength u = 0) ∨
      (q.matchLength t ≠ 0 ∧ q.matchLength u ≠ 0 ∧
        SameLayout (t.drop (q.matchLength t)) (u.drop (q.matchLength u)))

theorem LayoutBlind.replace_append_of_blank
    {q : Pattern}
    (hq : q.LayoutBlind)
    (s : List Char)
    {r : List Char}
    (hr : ∀ c ∈ r, isBlank c = true)
    (t : List Char) :
    q.replace s (r ++ t) = r ++ q.replace s t := by
  apply replace_append_of_unmatched
  intro x hne hx
  obtain ⟨c, x, rfl⟩ := List.exists_cons_of_ne_nil hne
  exact hq.blank (x ++ t) (hr c (hx.subset List.mem_cons_self))

theorem LayoutBlind.replace
    {q : Pattern}
    (hq : q.LayoutBlind)
    (s : List Char)
    {t u : List Char}
    (h : SameLayout t u) :
    SameLayout (q.replace s t) (q.replace s u) := by
  induction hn : t.length using Nat.strongRecOn generalizing t u with
  | ind n ih =>
      have hmatched := hq.matched h
      cases h with
      | nil => exact SameLayout.nil
      | @char c t u hc h =>
          rcases hmatched with ⟨ht, hu⟩ | ⟨ht, hu, hdrop⟩
          · rw [replace_cons_of_unmatched s ht, replace_cons_of_unmatched s hu]
            have hlength : t.length < n := by
              simp only [List.length_cons] at hn
              omega
            exact SameLayout.char hc (ih t.length hlength h rfl)
          · rw [replace_of_matched s (List.cons_ne_nil c t) ht,
              replace_of_matched s (List.cons_ne_nil c u) hu]
            apply SameLayout.append_left
            refine ih _ ?_ hdrop rfl
            simp only [List.length_drop, List.length_cons] at hn ⊢
            omega
      | @blanks r r' t u hr hr' hne hne' hline h =>
          rw [hq.replace_append_of_blank s hr, hq.replace_append_of_blank s hr']
          have hpositive := List.length_pos_iff.2 hne
          have hlength : t.length < n := by
            simp only [List.length_append] at hn
            omega
          exact SameLayout.blanks hr hr' hne hne' hline
            (ih t.length hlength h rfl)

end Pattern

theorem SameLayout.drop_word
    {t u w : List Char}
    (h : SameLayout t u)
    (hw : ∀ c ∈ w, isBlank c = false) :
    (¬ w <+: t ∧ ¬ w <+: u) ∨
      (w <+: t ∧ w <+: u ∧ SameLayout (t.drop w.length) (u.drop w.length)) := by
  induction w generalizing t u with
  | nil => exact Or.inr ⟨List.nil_prefix, List.nil_prefix, h⟩
  | cons z w ih =>
      have hz : isBlank z = false := hw z List.mem_cons_self
      cases h with
      | nil => simp
      | @char c t u hc h =>
          by_cases heq : z = c
          · subst heq
            simpa only [List.cons_prefix_cons, true_and, List.length_cons,
              List.drop_succ_cons]
              using ih h fun d hd => hw d (List.mem_cons_of_mem z hd)
          · simp [heq]
      | @blanks r r' t u hr hr' hne hne' _ _ =>
          have hhead : ∀ {y : List Char} (v : List Char),
              (∀ c ∈ y, isBlank c = true) →
              y ≠ [] → ¬ z :: w <+: y ++ v := by
            intro y v hy hne hstart
            obtain ⟨c, y, rfl⟩ := List.exists_cons_of_ne_nil hne
            rw [List.cons_append, List.cons_prefix_cons] at hstart
            have hblank := hy c List.mem_cons_self
            rw [← hstart.1, hz] at hblank
            contradiction
          exact Or.inl ⟨hhead t hr hne, hhead u hr' hne'⟩

/-- The first closers of texts of the same layout are followed by such texts. -/
theorem SameLayout.lengthThrough
    {t u k : List Char}
    (h : SameLayout t u)
    (hne : k ≠ [])
    (hk : ∀ c ∈ k, isBlank c = false) :
    (Pattern.lengthThrough k t = none ∧ Pattern.lengthThrough k u = none) ∨
      ∃ i j, Pattern.lengthThrough k t = some i ∧
        Pattern.lengthThrough k u = some j ∧
        SameLayout (t.drop i) (u.drop j) := by
  induction h with
  | nil => exact Or.inl ⟨rfl, rfl⟩
  | @char c t u hc h ih =>
      rcases (SameLayout.char hc h).drop_word hk with ⟨ht, hu⟩ | ⟨ht, hu, hdrop⟩
      · rw [Pattern.lengthThrough_cons_of_no_closer ht,
          Pattern.lengthThrough_cons_of_no_closer hu]
        rcases ih with ⟨hit, hiu⟩ | ⟨i, j, hi, hj, hdrop⟩
        · exact Or.inl ⟨by rw [hit]; rfl, by rw [hiu]; rfl⟩
        · exact Or.inr ⟨i + 1, j + 1, by rw [hi]; rfl, by rw [hj]; rfl, hdrop⟩
      · exact Or.inr ⟨k.length, k.length,
          Pattern.lengthThrough_of_closer (List.cons_ne_nil c t) ht,
          Pattern.lengthThrough_of_closer (List.cons_ne_nil c u) hu, hdrop⟩
  | @blanks r r' t u hr hr' _ _ _ h ih =>
      obtain ⟨z, k, rfl⟩ := List.exists_cons_of_ne_nil hne
      have habsent : ∀ {y : List Char} (v : List Char),
          (∀ c ∈ y, isBlank c = true) →
          Absent (z :: k) y v := by
        intro y v hy
        apply Absent.of_head_not_mem
        intro hz
        exact absurd (hy z hz) (by simp [hk z List.mem_cons_self])
      rw [Pattern.lengthThrough_append_of_absent (habsent t hr),
        Pattern.lengthThrough_append_of_absent (habsent u hr')]
      rcases ih with ⟨hit, hiu⟩ | ⟨i, j, hi, hj, hdrop⟩
      · exact Or.inl ⟨by rw [hit]; rfl, by rw [hiu]; rfl⟩
      · refine Or.inr
          ⟨i + r.length, j + r'.length, by rw [hi]; rfl, by rw [hj]; rfl, ?_⟩
        rwa [Nat.add_comm i, Nat.add_comm j, List.drop_length_add_append,
          List.drop_length_add_append]

theorem SameLayout.dropWhile_line
    {t u : List Char}
    (h : SameLayout t u) :
    SameLayout (t.dropWhile (· != '\n')) (u.dropWhile (· != '\n')) := by
  induction h with
  | nil => exact SameLayout.nil
  | @char c t u hc h ih =>
      have hline : (c != '\n') = true := by
        simp only [bne_iff_ne]
        rintro rfl
        contradiction
      simpa [List.dropWhile_cons, hline] using ih
  | @blanks r r' t u hr hr' hne hne' hline h ih =>
      by_cases hr_line : '\n' ∈ r
      · have hr'_line := hline.1 hr_line
        have hmem := mem_dropWhile_of_mem hr_line
        have hmem' := mem_dropWhile_of_mem hr'_line
        rw [dropWhile_append_of_mem hr_line, dropWhile_append_of_mem hr'_line]
        exact SameLayout.blanks
          (fun c hc => hr c ((List.dropWhile_suffix _).subset hc))
          (fun c hc => hr' c ((List.dropWhile_suffix _).subset hc))
          (List.ne_nil_of_mem hmem) (List.ne_nil_of_mem hmem')
          (iff_of_true hmem hmem') h
      · rwa [dropWhile_line_append hr_line,
          dropWhile_line_append (mt hline.2 hr_line)]

namespace Pattern

theorem layoutBlind_enclosed
    {o k : List Char}
    (hone : o ≠ [])
    (hkne : k ≠ [])
    (ho : ∀ c ∈ o, isBlank c = false)
    (hk : ∀ c ∈ k, isBlank c = false) :
    (enclosed o k).LayoutBlind where
  blank := by
    intro c t hc
    apply matchLength_enclosed_of_no_opener
    obtain ⟨z, o, rfl⟩ := List.exists_cons_of_ne_nil hone
    rw [List.cons_prefix_cons]
    rintro ⟨rfl, _⟩
    exact absurd hc (by simp [ho z List.mem_cons_self])
  matched := by
    intro t u h
    rcases h.drop_word ho with ⟨ht, hu⟩ | ⟨ht, hu, hdrop⟩
    · left
      exact ⟨matchLength_enclosed_of_no_opener ht,
        matchLength_enclosed_of_no_opener hu⟩
    · rw [matchLength_enclosed_of_opener ht, matchLength_enclosed_of_opener hu]
      rcases hdrop.lengthThrough hkne hk with ⟨hi, hj⟩ | ⟨i, j, hi, hj, hrest⟩
      · left
        rw [hi, hj]
        exact ⟨rfl, rfl⟩
      · right
        have hpositive := List.length_pos_iff.2 hone
        simp only [hi, hj, Option.map_some, Option.getD_some]
        refine ⟨by omega, by omega, ?_⟩
        rwa [List.drop_drop, List.drop_drop] at hrest

theorem layoutBlind_toLineEnd
    {marker : List Char}
    (hne : marker ≠ [])
    (hmarker : ∀ c ∈ marker, isBlank c = false) :
    (toLineEnd marker).LayoutBlind where
  blank := by
    intro c t hc
    apply matchLength_toLineEnd_of_no_marker
    obtain ⟨z, marker, rfl⟩ := List.exists_cons_of_ne_nil hne
    rw [List.cons_prefix_cons]
    rintro ⟨rfl, _⟩
    exact absurd hc (by simp [hmarker z List.mem_cons_self])
  matched := by
    intro t u h
    rcases h.drop_word hmarker with ⟨ht, hu⟩ | ⟨ht, hu, _⟩
    · left
      exact ⟨matchLength_toLineEnd_of_no_marker ht,
        matchLength_toLineEnd_of_no_marker hu⟩
    · right
      have hpositive : ∀ {y : List Char}, marker <+: y →
          (y.takeWhile (· != '\n')).length ≠ 0 := by
        rintro _ ⟨rest, rfl⟩
        obtain ⟨z, marker, rfl⟩ := List.exists_cons_of_ne_nil hne
        have hline : (z != '\n') = true := by
          simp only [bne_iff_ne]
          rintro rfl
          exact absurd (hmarker '\n' List.mem_cons_self) (by decide)
        simp [hline]
      rw [matchLength_toLineEnd_of_marker ht,
        matchLength_toLineEnd_of_marker hu, drop_length_takeWhile,
        drop_length_takeWhile]
      exact ⟨hpositive ht, hpositive hu, h.dropWhile_line⟩

end Pattern

end Passes

end Resemblance.Text

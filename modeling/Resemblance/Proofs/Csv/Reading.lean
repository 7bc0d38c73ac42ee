import Resemblance.Csv
import Resemblance.Proofs.Text.Joining

/-!
# Reading comma-separated values

The grammar is that of RFC 4180, with a line end behind every record and any
character that is not special as text.  It is given twice, as a relation between
values and their texts and as a reader, and the reader accepts exactly the texts
of the grammar.  What is written is a text of the grammar.
-/

namespace Resemblance.Csv

section Grammar

/-- Characters that may stand in a field without quotes. -/
def isTextData (c : Char) : Bool :=
  c != ',' && c != '"' && c != '\r' && c != '\n'

/-- The second text is the first one with every quote written twice. -/
inductive Doubled : List Char → List Char → Prop
  | nil : Doubled [] []
  | quote {v w : List Char} : Doubled v w → Doubled ('"' :: v) ('"' :: '"' :: w)
  | other {c : Char} {v w : List Char} : c ≠ '"' → Doubled v w →
    Doubled (c :: v) (c :: w)

inductive FieldText : List Char → List Char → Prop
  | bare {v : List Char} : (∀ c ∈ v, isTextData c = true) → FieldText v v
  | quoted {v w : List Char} : Doubled v w → FieldText v ('"' :: (w ++ ['"']))

/-- A record has at least one field; the fields may be empty. -/
inductive RecordText : List (List Char) → List Char → Prop
  | single {v w : List Char} : FieldText v w → RecordText [v] w
  | cons {v w t : List Char} {vs : List (List Char)} :
      FieldText v w → RecordText vs t → RecordText (v :: vs) (w ++ ',' :: t)

inductive DocumentText : List (List (List Char)) → List Char → Prop
  | nil : DocumentText [] []
  | cons {vs : List (List Char)} {w t : List Char}
      {rs : List (List (List Char))} :
      RecordText vs w → DocumentText rs t →
        DocumentText (vs :: rs) (w ++ '\r' :: '\n' :: t)

end Grammar

section Reader

/-- Reads up to the quote that closes a field, and what is behind it. -/
def readQuoted? : List Char → Option (List Char × List Char)
  | [] => none
  | '"' :: '"' :: t => (readQuoted? t).map fun (v, rest) => ('"' :: v, rest)
  | c :: t =>
    if c = '"' then some ([], t)
    else (readQuoted? t).map fun (v, rest) => (c :: v, rest)

def readField? : List Char → Option (List Char × List Char)
  | '"' :: t => readQuoted? t
  | t => some (t.takeWhile isTextData, t.dropWhile isTextData)

theorem exists_doubled_of_readQuoted?
    {t v rest : List Char}
    (hread : readQuoted? t = some (v, rest)) :
    ∃ w, Doubled v w ∧ t = w ++ '"' :: rest := by
  fun_induction readQuoted? t generalizing v with
  | case1 => contradiction
  | case2 t ih =>
      obtain ⟨⟨u, r⟩, hu, hpair⟩ := Option.map_eq_some_iff.1 hread
      obtain ⟨rfl, rfl⟩ := Prod.mk.inj hpair
      obtain ⟨w, hw, rfl⟩ := ih hu
      exact ⟨'"' :: '"' :: w, .quote hw, rfl⟩
  | case3 t _ =>
      obtain ⟨rfl, rfl⟩ := Prod.mk.inj (Option.some.inj hread)
      exact ⟨[], .nil, rfl⟩
  | case4 c t _ hc ih =>
      obtain ⟨⟨u, r⟩, hu, hpair⟩ := Option.map_eq_some_iff.1 hread
      obtain ⟨rfl, rfl⟩ := Prod.mk.inj hpair
      obtain ⟨w, hw, rfl⟩ := ih hu
      exact ⟨c :: w, .other hc hw, rfl⟩

theorem readQuoted?_append
    {v w rest : List Char}
    (hw : Doubled v w)
    (hrest : rest.head? ≠ some '"') :
    readQuoted? (w ++ '"' :: rest) = some (v, rest) := by
  induction hw with
  | nil =>
      cases rest with
      | nil => rfl
      | cons c rest =>
          have hc : c ≠ '"' := fun h => hrest (congrArg some h)
          simp [readQuoted?, hc]
  | quote _ ih => simp [readQuoted?, ih]
  | other hc _ ih => simp [readQuoted?, hc, ih]

theorem exists_fieldText_of_readField?
    {t v rest : List Char}
    (hread : readField? t = some (v, rest)) :
    ∃ w, FieldText v w ∧ t = w ++ rest := by
  unfold readField? at hread
  split at hread
  next t =>
    obtain ⟨w, hw, rfl⟩ := exists_doubled_of_readQuoted? hread
    exact ⟨'"' :: (w ++ ['"']), .quoted hw, by simp⟩
  next =>
    obtain ⟨rfl, rfl⟩ := Prod.mk.inj (Option.some.inj hread)
    have htext : ∀ c ∈ t.takeWhile isTextData, isTextData c = true :=
      List.all_eq_true.1 List.all_takeWhile
    exact ⟨_, .bare htext, List.takeWhile_append_dropWhile.symm⟩

theorem readField?_of_head
    {t : List Char}
    (hhead : t.head? ≠ some '"') :
    readField? t = some (t.takeWhile isTextData, t.dropWhile isTextData) := by
  unfold readField?
  split
  next => simp at hhead
  next => rfl

/-- Text data goes on neither with a comma nor with a line end. -/
def EndsField (rest : List Char) : Prop :=
  ∀ c ∈ rest.head?, isTextData c = false ∧ c ≠ '"'

theorem readField?_append
    {v w rest : List Char}
    (hw : FieldText v w)
    (hrest : EndsField rest) :
    readField? (w ++ rest) = some (v, rest) := by
  cases hw with
  | bare htext =>
      have hhead : (v ++ rest).head? ≠ some '"' := by
        cases v with
        | nil => exact fun h => (hrest '"' h).2 rfl
        | cons c v =>
            intro h
            have hc := htext c List.mem_cons_self
            rw [Option.some.inj h] at hc
            contradiction
      have hstop : ∀ c ∈ rest.head?, isTextData c = false :=
        fun c hc => (hrest c hc).1
      have htake := Text.takeWhile_append_of_stop htext hstop
      have hwhole : (v ++ rest).takeWhile isTextData ++
          (v ++ rest).dropWhile isTextData =
          v ++ rest := List.takeWhile_append_dropWhile
      rw [htake] at hwhole
      rw [readField?_of_head hhead, htake, List.append_cancel_left hwhole]
  | quoted hw =>
      rw [List.cons_append, List.append_assoc, readField?]
      exact readQuoted?_append hw fun h => (hrest '"' h).2 rfl

theorem length_lt_of_readField?
    {t v rest : List Char} {c : Char}
    (hread : readField? t = some (v, c :: rest)) :
    rest.length < t.length := by
  obtain ⟨w, -, rfl⟩ := exists_fieldText_of_readField? hread
  simp only [List.length_append, List.length_cons]
  omega

/-- Reads up to the line end of a record, and what is behind it. -/
def readRecord? (t : List Char) : Option (List (List Char) × List Char) :=
  match _hfield : readField? t with
  | some (v, ',' :: t) => (readRecord? t).map fun (vs, rest) => (v :: vs, rest)
  | some (v, '\r' :: '\n' :: t) => some ([v], t)
  | _ => none
termination_by t.length
decreasing_by exact length_lt_of_readField? _hfield

theorem exists_recordText_of_readRecord?
    {t rest : List Char} {vs : List (List Char)}
    (hread : readRecord? t = some (vs, rest)) :
    ∃ w, RecordText vs w ∧ t = w ++ '\r' :: '\n' :: rest := by
  fun_induction readRecord? t generalizing vs with
  | case1 t v t' hfield ih =>
      obtain ⟨⟨us, r⟩, hus, hpair⟩ := Option.map_eq_some_iff.1 hread
      obtain ⟨rfl, rfl⟩ := Prod.mk.inj hpair
      obtain ⟨w, hw, rfl⟩ := exists_fieldText_of_readField? hfield
      obtain ⟨w', hw', rfl⟩ := ih hus
      exact ⟨w ++ ',' :: w', .cons hw hw', by simp⟩
  | case2 t v t' hfield =>
      obtain ⟨rfl, rfl⟩ := Prod.mk.inj (Option.some.inj hread)
      obtain ⟨w, hw, rfl⟩ := exists_fieldText_of_readField? hfield
      exact ⟨w, .single hw, rfl⟩
  | case3 => contradiction

theorem readRecord?_append
    {vs : List (List Char)} {w : List Char}
    (hw : RecordText vs w)
    (rest : List Char) :
    readRecord? (w ++ '\r' :: '\n' :: rest) = some (vs, rest) := by
  induction hw with
  | single hv =>
      have hends : EndsField ('\r' :: '\n' :: rest) := by
        simp [EndsField, isTextData]
      rw [readRecord?, readField?_append hv hends]
      rfl
  | cons hv _ ih =>
      have hends (t : List Char) : EndsField (',' :: t) := by
        simp [EndsField, isTextData]
      rw [List.append_assoc, List.cons_append, readRecord?,
        readField?_append hv (hends _)]
      simp [ih]

theorem length_lt_of_readRecord?
    {t rest : List Char} {vs : List (List Char)}
    (hread : readRecord? t = some (vs, rest)) :
    rest.length < t.length := by
  obtain ⟨w, -, rfl⟩ := exists_recordText_of_readRecord? hread
  simp only [List.length_append, List.length_cons]
  omega

/-- The records of a whole text, if it is one of the grammar. -/
def read? (t : List Char) : Option (List (List (List Char))) :=
  if t = [] then some []
  else match _hrecord : readRecord? t with
    | some (vs, rest) => (read? rest).map (vs :: ·)
    | none => none
termination_by t.length
decreasing_by exact length_lt_of_readRecord? _hrecord

theorem read?_eq_some_iff
    {t : List Char} {rs : List (List (List Char))} :
    read? t = some rs ↔ DocumentText rs t := by
  constructor
  · intro hread
    fun_induction read? t generalizing rs with
    | case1 =>
        cases hread
        exact .nil
    | case2 t _ vs rest hrecord ih =>
        obtain ⟨us, hus, rfl⟩ := Option.map_eq_some_iff.1 hread
        obtain ⟨w, hw, rfl⟩ := exists_recordText_of_readRecord? hrecord
        exact .cons hw (ih hus)
    | case3 => contradiction
  · intro htext
    induction htext with
    | nil => rw [read?, if_pos rfl]
    | cons hw _ ih =>
        rw [read?, if_neg (by simp), readRecord?_append hw]
        simp [ih]

end Reader

section Writer

theorem doubled_doubleQuotes (v : List Char) : Doubled v (doubleQuotes v) := by
  induction v with
  | nil => exact .nil
  | cons c v ih =>
      by_cases hc : c = '"'
      · subst hc
        exact .quote ih
      · rw [doubleQuotes, if_neg (by simpa using hc)]
        exact .other hc ih

theorem isTextData_eq (c : Char) : isTextData c = !needsQuotes c := by
  simp only [isTextData, needsQuotes, bne, Bool.not_or, Bool.and_right_comm]

theorem fieldText_field (v : List Char) : FieldText v (field v) := by
  by_cases hv : v.any needsQuotes = true
  · rw [field, if_pos hv]
    exact .quoted (doubled_doubleQuotes v)
  · rw [field, if_neg hv]
    refine .bare fun c hc => ?_
    rw [isTextData_eq, Bool.not_eq_true']
    exact Bool.eq_false_iff.2 fun hquotes =>
      hv (List.any_eq_true.2 ⟨c, hc, hquotes⟩)

/-- A record without fields is an empty line, which reads as one empty field. -/
def seen (fields : List (List Char)) : List (List Char) :=
  if fields = [] then [[]] else fields

theorem recordText_intercalate (fields : List (List Char)) :
    RecordText (seen fields) ([','].intercalate (fields.map field)) := by
  induction fields with
  | nil => exact .single (.bare (by simp))
  | cons v fields ih =>
      cases fields with
      | nil =>
          rw [List.map_singleton, List.intercalate_singleton]
          exact .single (fieldText_field v)
      | cons u fields =>
          rw [List.map_cons, List.map_cons, List.intercalate_cons_cons,
            List.append_assoc]
          exact .cons (fieldText_field v) ih

theorem documentText_document (records : List (List (List Char))) :
    DocumentText (records.map seen) (document records) := by
  induction records with
  | nil => exact .nil
  | cons fields records ih =>
      rw [document, List.flatMap_cons, record, List.append_assoc]
      exact .cons (recordText_intercalate fields) ih

theorem read?_document (records : List (List (List Char))) :
    read? (document records) = some (records.map seen) :=
  read?_eq_some_iff.2 (documentText_document records)

end Writer

end Resemblance.Csv

import Mathlib.Data.List.Induction
import Resemblance.Disk
import Resemblance.Path
import Resemblance.Proofs.Text.Joining

/-!
# Where a write goes

A path with a file name leads to a location that ends in this name, so two paths
to one location have the same file name and the same extension.  Writing a text
changes the location of its path and no other.
-/

namespace Resemblance

theorem exists_of_bind_eq_ok
    {ε α β : Type} {x : Except ε α} {f : α → Except ε β} {b : β}
    (hbind : x >>= f = .ok b) :
    ∃ a, x = .ok a ∧ f a = .ok b := by
  cases x with
  | error e => contradiction
  | ok a => exact ⟨a, rfl, hbind⟩

section Names

namespace Path

theorem extensionOf?_append
    {e : List Char}
    (he : '.' ∉ e)
    (p : List Char) :
    extensionOf? (p ++ '.' :: e) = if p = [] then none else some e := by
  have hbefore : ∀ c ∈ e.reverse, (c != '.') = true := by
    intro c hc
    rw [bne_iff_ne]
    rintro rfl
    exact he (List.mem_reverse.1 hc)
  have hreverse : (p ++ '.' :: e).reverse = e.reverse ++ '.' :: p.reverse := by
    simp
  rw [extensionOf?, hreverse, List.dropWhile_append_of_pos hbefore,
    List.takeWhile_append_of_pos hbefore]
  cases hp : p.reverse with
  | nil => simp [List.reverse_eq_nil_iff.1 hp]
  | cons c q =>
      have hne : p ≠ [] := fun h => by simp [h] at hp
      simp [hne]

/-- An extension at the end of a path becomes part of its file name. -/
theorem exists_fileName?_append
    {e : List Char}
    (hne : e ≠ [])
    (hslash : '/' ∉ e)
    (hdot : '.' ∉ e)
    {base path : String}
    (hpath : path.toList = base.toList ++ '.' :: e) :
    ∃ p, fileName? path = some (p ++ '.' :: e) := by
  obtain ⟨parts, p, hparts⟩ :=
    Text.exists_splitAt_append (z := '/') (u := '.' :: e)
      (by simpa using hslash) base.toList
  have hname : isStep (p ++ '.' :: e) = true := by
    cases p <;> simp [isStep, hne]
  have hparent : p ++ '.' :: e ≠ ['.', '.'] := by
    intro hparent
    have hsuffix : e <:+ ['.', '.'] := by
      rw [← hparent]
      exact (List.suffix_cons _ _).trans (List.suffix_append _ _)
    obtain ⟨c, e, rfl⟩ := List.exists_cons_of_ne_nil hne
    have hc : c ∈ ['.', '.'] := hsuffix.subset List.mem_cons_self
    simp_all
  refine ⟨p, ?_⟩
  rw [fileName?, steps, hpath, hparts, List.filter_append,
    List.filter_cons_of_pos hname, List.filter_nil, List.getLast?_concat]
  simp [hparent]

end Path

namespace Disk

variable {d : Disk} {here l : Location} {part : List Char}

theorem eq_of_step
    (hname : Path.isStep part = false)
    (hstep : d.step here (String.ofList part) = .ok l) :
    l = here := by
  have hpart : String.ofList part = "" ∨ String.ofList part = "." := by
    simp only [Path.isStep, Bool.and_eq_false_iff, bne_eq_false_iff_eq] at hname
    rcases hname with rfl | rfl
    · exact .inl rfl
    · exact .inr rfl
  unfold step at hstep
  split at hstep
  next => contradiction
  next => contradiction
  next =>
    rw [if_pos hpart] at hstep
    exact (Except.ok.inj hstep).symm

theorem eq_concat_of_step
    (hname : Path.isStep part = true)
    (hparent : part ≠ ['.', '.'])
    (hstep : d.step here (String.ofList part) = .ok l) :
    l = here ++ [String.ofList part] := by
  have hpart : ¬ (String.ofList part = "" ∨ String.ofList part = ".") := by
    simp only [Path.isStep, Bool.and_eq_true, bne_iff_ne] at hname
    rintro (hempty | hdot)
    · exact hname.1 (String.ofList_eq_empty_iff.1 hempty)
    · exact hname.2 (String.ofList_injective hdot)
  have hpart' : String.ofList part ≠ ".." :=
    fun h => hparent (String.ofList_injective h)
  unfold step at hstep
  split at hstep
  next => contradiction
  next => contradiction
  next =>
    rw [if_neg hpart, if_neg hpart'] at hstep
    split at hstep
    next => contradiction
    next => exact (Except.ok.inj hstep).symm

theorem getLast?_of_walk
    {parts : List (List Char)} {name : List Char}
    (hwalk : (parts.map String.ofList).foldlM d.step here = .ok l)
    (hname : (parts.filter Path.isStep).getLast? = some name)
    (hparent : name ≠ ['.', '.']) :
    l.getLast? = some (String.ofList name) := by
  induction parts using List.reverseRecOn generalizing l with
  | nil => simp at hname
  | append_singleton parts part ih =>
      rw [List.map_append, List.foldlM_append] at hwalk
      obtain ⟨before, hbefore, hlast⟩ := exists_of_bind_eq_ok hwalk
      obtain ⟨after, hstep, hend⟩ := exists_of_bind_eq_ok hlast
      obtain rfl := Except.ok.inj hend
      rw [List.filter_append] at hname
      cases hpart : Path.isStep part with
      | false =>
          rw [List.filter_cons_of_neg (Bool.eq_false_iff.1 hpart),
            List.filter_nil, List.append_nil] at hname
          rw [eq_of_step hpart hstep]
          exact ih hbefore hname
      | true =>
          rw [List.filter_cons_of_pos hpart, List.filter_nil,
            List.getLast?_concat] at hname
          obtain rfl := Option.some.inj hname
          rw [eq_concat_of_step hpart hparent hstep, List.getLast?_concat]

theorem exists_walk_of_locate
    {path : String}
    (hlocate : d.locate path = .ok l) :
    ∃ start,
      ((Text.splitAt '/' path.toList).map String.ofList).foldlM d.step start =
        .ok l := by
  simp only [locate] at hlocate
  split at hlocate
  next => contradiction
  next =>
    split at hlocate
    next => contradiction
    next =>
      split at hlocate
      next => contradiction
      next => exact ⟨_, hlocate⟩

theorem getLast?_of_locate
    {path : String} {name : List Char}
    (hlocate : d.locate path = .ok l)
    (hname : Path.fileName? path = some name) :
    l.getLast? = some (String.ofList name) := by
  obtain ⟨start, hwalk⟩ := exists_walk_of_locate hlocate
  unfold Path.fileName? at hname
  split at hname
  next last hlast =>
    split at hname
    next => contradiction
    next hparent =>
      obtain rfl := Option.some.inj hname
      exact getLast?_of_walk hwalk hlast hparent
  next => contradiction

/-- Paths to one location have one file name. -/
theorem fileName?_eq_of_locate_eq
    {path path' : String} {name name' : List Char}
    (hlocate : d.locate path = .ok l)
    (hlocate' : d.locate path' = .ok l)
    (hname : Path.fileName? path = some name)
    (hname' : Path.fileName? path' = some name') :
    name = name' := by
  have hlast := getLast?_of_locate hlocate hname
  have hlast' := getLast?_of_locate hlocate' hname'
  rw [hlast] at hlast'
  exact String.ofList_injective (Option.some.inj hlast')

end Disk

end Names

namespace Disk

variable {d written : Disk} {l : Location}

/-- A location that holds no directory is outside the working directory and
those above it. -/
theorem find?_put_self
    (hfree : d.find? l ≠ some .directory)
    (entry : DiskEntry) :
    (d.put l entry).find? l = some entry := by
  have hhome : ¬ l.isPrefixOf d.home = true := by
    intro hhome
    rw [find?, if_pos hhome] at hfree
    contradiction
  change (if l.isPrefixOf d.home then some DiskEntry.directory else _) = _
  rw [if_neg hhome]
  exact List.lookup_cons_self

theorem lookup_filter_of_ne
    {m : Location}
    (hne : m ≠ l)
    (entries : List (Location × DiskEntry)) :
    (entries.filter (·.1 != l)).lookup m = entries.lookup m := by
  induction entries with
  | nil => rfl
  | cons entry entries ih =>
      obtain ⟨k, content⟩ := entry
      by_cases hk : k = l
      · subst hk
        rw [List.filter_cons_of_neg (by simp), ih, List.lookup_cons,
          beq_eq_false_iff_ne.2 hne]
      · rw [List.filter_cons_of_pos (by simpa using hk), List.lookup_cons,
          List.lookup_cons, ih]

theorem find?_put_of_ne
    {m : Location}
    (hne : m ≠ l)
    (d : Disk)
    (entry : DiskEntry) :
    (d.put l entry).find? m = d.find? m := by
  have hlookup : (d.put l entry).entries.lookup m = d.entries.lookup m := by
    rw [put, List.lookup_cons, beq_eq_false_iff_ne.2 hne,
      lookup_filter_of_ne hne]
  rw [find?, find?, hlookup]
  rfl

/-- The two disks hold the same, but for one location. -/
structure DiffersOnlyAt (written d : Disk) (l : Location) : Prop where
  home_eq : written.home = d.home
  find?_eq : ∀ m, m ≠ l → written.find? m = d.find? m

theorem exists_location_of_writeText
    {path text : String}
    (hwrite : d.writeText path text = .ok written) :
    ∃ l, d.locate path = .ok l ∧ written.find? l = some (.file text.toUTF8) ∧
      written.DiffersOnlyAt d l := by
  obtain ⟨l, hlocate, hput⟩ := exists_of_bind_eq_ok hwrite
  split at hput
  next => contradiction
  next hfree =>
    obtain rfl := Except.ok.inj hput
    exact ⟨l, hlocate, find?_put_self hfree _, rfl,
      fun m hm => find?_put_of_ne hm d _⟩

end Disk

end Resemblance

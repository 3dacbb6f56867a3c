import Dn42Ctl.Lib.Disk

/-!
# Mirror

Files that are kept in step with a list of entries: a path holds the text of
its entry, and there is no file where there is no entry.

* `Shows.replace` — some entries are replaced by others: the files of the old
  ones are removed and those of the new ones written, nothing else is touched;
* `Wrote` — what a program that only writes entries and removes certain files
  can have done, step by step.
-/

open Text

namespace Disk

variable {entries entries' new : List (PosixPath × Str)} {d d' : Disk} {p : PosixPath}

/-- The path reads as the entries say. -/
def Shows (entries : List (PosixPath × Str)) (d : Disk) (p : PosixPath) : Prop :=
  ∀ c, d.read p = some c ↔ ∃ s, (p, s) ∈ entries ∧ c = .text s

/-- Only what can be read and the set of the entries matter. -/
theorem Shows.congr (h : Shows entries d p) (hentries : ∀ s, (p, s) ∈ entries' ↔ (p, s) ∈ entries)
    (hread : d'.read p = d.read p) : Shows entries' d' p := by
  intro c
  rw [hread, h c]
  simp only [hentries]

/-- The text of an entry is what its path holds. -/
theorem Shows.read {s : Str} (h : Shows entries d p) (hmem : (p, s) ∈ entries) :
    d.read p = some (.text s) := (h _).mpr ⟨s, hmem, rfl⟩

/-- A path without an entry has no file. -/
theorem Shows.read_none (h : Shows entries d p) (hmem : p ∉ entries.map Prod.fst) :
    d.read p = none := by
  rw [Option.eq_none_iff_forall_ne_some]
  intro c hc
  obtain ⟨s, hs, -⟩ := (h c).mp hc
  exact hmem (List.mem_map_of_mem hs)

/-- Two machines that show the same entries read the same. -/
theorem Shows.unique (h : Shows entries d p) (h' : Shows entries d' p) : d'.read p = d.read p :=
  Option.ext fun c => (h' c).trans (h c).symm

/-- Distinct entries that were written are shown. -/
theorem shows_writeAll (hnodup : (entries.map Prod.fst).Nodup) (hmem : p ∈ entries.map Prod.fst) :
    Shows entries (d.writeAll entries) p := by
  obtain ⟨e, he, rfl⟩ := List.mem_map.mp hmem
  intro c
  rw [read_writeAll_of_mem hnodup he, Option.some.injEq]
  constructor
  · rintro rfl
    exact ⟨e.2, he, rfl⟩
  · rintro ⟨s, hs, rfl⟩
    rw [List.inj_on_of_nodup_map hnodup he hs rfl]

/-- A disk with the entries and nothing else shows them everywhere. -/
theorem shows_writeAll_nil (hnodup : (entries.map Prod.fst).Nodup) (p : PosixPath) :
    Shows entries (writeAll [] entries) p := by
  by_cases hmem : p ∈ entries.map Prod.fst
  · exact shows_writeAll hnodup hmem
  · intro c
    rw [read_writeAll_of_notMem hmem]
    constructor
    · intro hc
      cases hc
    · rintro ⟨s, hs, _⟩
      exact absurd (List.mem_map_of_mem hs) hmem

/-- **Replacing entries**: the files of the old entries are removed or written
over, those of the new ones are written, the others are not touched. -/
theorem Shows.replace (h : Shows entries d p) (old rest : List (PosixPath × Str))
    {gone : List PosixPath}
    (hentries : ∀ e, e ∈ entries ↔ e ∈ old ∨ e ∈ rest)
    (hentries' : ∀ e, e ∈ entries' ↔ e ∈ new ∨ e ∈ rest)
    (hnodup : (new.map Prod.fst).Nodup)
    (hold : ∀ q ∈ old.map Prod.fst, q ∈ gone ∨ q ∈ new.map Prod.fst)
    (hrest : ∀ q ∈ rest.map Prod.fst, q ∉ gone ∧ q ∉ new.map Prod.fst) :
    Shows entries' ((d.unlinkAll gone).writeAll new) p := by
  by_cases hnew : p ∈ new.map Prod.fst
  · have hshown := shows_writeAll (d := d.unlinkAll gone) hnodup hnew
    refine hshown.congr (fun s => ?_) rfl
    rw [hentries', or_iff_left]
    exact fun hmem => (hrest p (List.mem_map_of_mem hmem)).2 hnew
  · have hread := read_writeAll_of_notMem (d := d.unlinkAll gone) hnew
    have hnotNew : ∀ s, (p, s) ∉ new := fun s hs => hnew (List.mem_map_of_mem hs)
    by_cases hgone : p ∈ gone
    · intro c
      rw [hread, read_unlinkAll, if_pos hgone]
      constructor
      · intro hc
        cases hc
      · rintro ⟨s, hs, -⟩
        obtain hs | hs := (hentries' _).mp hs
        · exact absurd hs (hnotNew s)
        · exact absurd hgone (hrest p (List.mem_map_of_mem hs)).1
    · refine h.congr (fun s => ?_) ?_
      · rw [hentries', hentries, or_iff_right (hnotNew s), or_iff_right]
        intro hs
        obtain hs | hs := hold p (List.mem_map_of_mem hs)
        · exact hgone hs
        · exact hnew hs
      · rw [hread, read_unlinkAll, if_neg hgone]

/-! ## programs that write entries -/

/-- Every file is as it was, is one of `gone` and removed, or holds a text of the
entries; those of `done` hold such a text. -/
structure Wrote (entries : List (PosixPath × Str)) (gone done : List PosixPath) (d d' : Disk) :
    Prop where
  touched : ∀ p, d'.read p = d.read p ∨ (p ∈ gone ∧ d'.read p = none) ∨
    ∃ s, (p, s) ∈ entries ∧ d'.read p = some (.text s)
  written : ∀ p ∈ done, p ∉ gone → ∃ s, (p, s) ∈ entries ∧ d'.read p = some (.text s)

namespace Wrote

variable {gone done done' : List PosixPath} {d'' : Disk}

theorem refl (d : Disk) : Wrote entries gone [] d d :=
  ⟨fun _ => .inl rfl, fun _ hp => absurd hp List.not_mem_nil⟩

theorem trans (h : Wrote entries gone done d d') (h' : Wrote entries gone done' d' d'') :
    Wrote entries gone (done ++ done') d d'' where
  touched p := by
    obtain hsame | hnew := h'.touched p
    · rw [hsame]
      exact h.touched p
    · exact .inr hnew
  written p hp hgone := by
    obtain hp | hp := List.mem_append.mp hp
    · obtain hsame | hnew := h'.touched p
      · rw [hsame]
        exact h.written p hp hgone
      · exact hnew.resolve_left fun hremoved => hgone hremoved.1
    · exact h'.written p hp hgone

theorem unlink (hp : p ∈ gone) : Wrote entries gone [] d (d.unlink p) where
  touched q := by
    rw [read_unlink]
    split
    · next heq => exact .inr (.inl ⟨heq ▸ hp, rfl⟩)
    · exact .inl rfl
  written _ hq := absurd hq List.not_mem_nil

theorem writeAll {ws : List (PosixPath × Str)} (h : ws ⊆ entries) :
    Wrote entries gone (ws.map Prod.fst) d (d.writeAll ws) where
  touched q := by
    by_cases hq : q ∈ ws.map Prod.fst
    · obtain ⟨s, hs, hread⟩ := read_writeAll_isSome (d := d) hq
      exact .inr (.inr ⟨s, h hs, hread⟩)
    · exact .inl (read_writeAll_of_notMem hq)
  written q hq _ := by
    obtain ⟨s, hs, hread⟩ := read_writeAll_isSome (d := d) hq
    exact ⟨s, h hs, hread⟩

theorem mono (h : Wrote entries gone done d d') (hsub : done' ⊆ done) :
    Wrote entries gone done' d d' := ⟨h.touched, fun p hp => h.written p (hsub hp)⟩

/-- A written place shows the entries, where they give it one text. -/
theorem shows (h : Wrote entries gone done d d') (hdone : p ∈ done) (hgone : p ∉ gone)
    (hunique : ∀ s t, (p, s) ∈ entries → (p, t) ∈ entries → s = t) : Shows entries d' p := by
  obtain ⟨s, hs, hread⟩ := h.written p hdone hgone
  intro c
  rw [hread, Option.some.injEq]
  constructor
  · rintro rfl
    exact ⟨s, hs, rfl⟩
  · rintro ⟨t, ht, rfl⟩
    rw [hunique s t hs ht]

/-- Writing what is shown already changes nothing. -/
theorem read_eq (h : Wrote entries gone done d d') (hgone : p ∉ gone)
    (hshown : ∀ s, (p, s) ∈ entries → d.read p = some (.text s)) : d'.read p = d.read p := by
  obtain hsame | ⟨hp, -⟩ | ⟨s, hs, hread⟩ := h.touched p
  · exact hsame
  · exact absurd hp hgone
  · rw [hread, hshown s hs]

end Wrote

end Disk

import Dn42Ctl.Lib.Text
import Mathlib.Data.List.TakeWhile

/-!
# Pattern

The regular expressions of `re` that are a sequence of literals, of greedy runs
`p*` and `p+` of a character class, and of alternatives of literals.  A run is
tried from its longest extent down, so the first match found is the one
Python's backtracking finds.

* `matchAt` — `re.match`: the groups and the text after the match;
* `searchFrom` — `re.search`, with a condition on the character before;
* `findAll` — the groups of `finditer`;
* `matchAt_groups`, `consists_of_matchAt` — what a match says about the text;
* `matchAt_text`, `matchAt_run`, `searchFrom_skip` — finding a match in a text
  that is known piece by piece.
-/

namespace Pattern

open Text

/-- One piece of a regular expression.  A run says whether it is a group; an
alternative always is one. -/
inductive Item where
  | text (t : Str)
  | run (least : Nat) (p : Nat → Bool) (group : Bool)
  | oneOf (ts : List Str)

/-- The extents of a run, the longest first. -/
def extents (least longest : Nat) : List Nat :=
  (List.range (longest + 1 - least)).map fun i => longest - i

/-- The match at the start of a text: its groups, and what stands after it. -/
def matchAt : List Item → Str → Option (List Str × Str)
  | [], s => some ([], s)
  | .text t :: items, s => if t.isPrefixOf s then matchAt items (s.drop t.length) else none
  | .run least p group :: items, s =>
      (extents least (s.takeWhile p).length).findSome? fun k =>
        (matchAt items (s.drop k)).map fun m => (if group then s.take k :: m.1 else m.1, m.2)
  | .oneOf ts :: items, s =>
      ts.findSome? fun t =>
        if t.isPrefixOf s then (matchAt items (s.drop t.length)).map fun m => (t :: m.1, m.2)
        else none

/-- The first match in a text; `start` is a condition on the character before
the match. -/
def searchFrom (start : Option Nat → Bool) (items : List Item) (before : Option Nat) :
    Str → Option (List Str × Str)
  | [] => if start before then matchAt items [] else none
  | c :: cs =>
      match if start before then matchAt items (c :: cs) else none with
      | some m => some m
      | none => searchFrom start items (some c) cs

/-- `re.search`. -/
def search (items : List Item) (s : Str) : Option (List Str × Str) :=
  searchFrom (fun _ => true) items none s

/-- `re.finditer`, as long as no match is empty: the groups of each match. -/
def findAllFrom (items : List Item) : Nat → Str → List (List Str)
  | 0, _ => []
  | fuel + 1, s =>
      match search items s with
      | none => []
      | some (groups, rest) => groups :: findAllFrom items fuel rest

def findAll (items : List Item) (s : Str) : List (List Str) := findAllFrom items (s.length + 1) s

/-! ## what a match says about the text -/

/-- What a group of an item can hold. -/
def Item.Accepts : Item → Str → Prop
  | .text t, g => g = t
  | .run least p _, g => least ≤ g.length ∧ ∀ c ∈ g, p c = true
  | .oneOf ts, g => g ∈ ts

/-- The items that are groups. -/
def Item.isGroup : Item → Bool
  | .text _ => false
  | .run _ _ group => group
  | .oneOf _ => true

/-- A repeat takes a number of characters within its bounds. -/
theorem le_of_mem_extents {least longest k : Nat} (h : k ∈ extents least longest) :
    least ≤ k ∧ k ≤ longest := by
  obtain ⟨i, hi, rfl⟩ := List.mem_map.mp h
  rw [List.mem_range] at hi
  omega

/-- A cut of the longest run is a run. -/
theorem all_take_takeWhile {p : Nat → Bool} {s : Str} {k : Nat}
    (h : k ≤ (s.takeWhile p).length) : ∀ c ∈ s.take k, p c = true := by
  intro c hc
  have htake := List.take_prefix k s
  have hrun : s.takeWhile p <+: s := List.takeWhile_prefix p
  have hpre : s.take k <+: s.takeWhile p :=
    List.prefix_of_prefix_length_le htake hrun ((List.length_take_le k s).trans h)
  exact List.mem_takeWhile_imp (hpre.subset hc)

/-- A prefix occurs in the text. -/
theorem isInfix_of_isPrefixOf {t s : Str} (h : t.isPrefixOf s = true) : t <:+: s := by
  rw [List.isPrefixOf_iff_prefix] at h
  exact h.isInfix

/-- The groups of a match are parts of the text, each of the kind its item
accepts, and every literal stands in the text. -/
theorem matchAt_groups {items : List Item} {s rest : Str} {groups : List Str}
    (h : matchAt items s = some (groups, rest)) :
    List.Forall₂ Item.Accepts (items.filter Item.isGroup) groups ∧
      (∀ g ∈ groups, g <:+: s) ∧ rest <:+ s ∧ ∀ t, Item.text t ∈ items → t <:+: s := by
  induction items generalizing s groups rest with
  | nil =>
      cases h
      exact ⟨.nil, fun g hg => absurd hg List.not_mem_nil, List.suffix_rfl,
        fun t ht => absurd ht List.not_mem_nil⟩
  | cons item items ih =>
      have hdrop : ∀ k, s.drop k <:+ s := fun k => List.drop_suffix k s
      cases item with
      | text t =>
          rw [matchAt] at h
          split at h
          · rename_i hpre
            obtain ⟨hforall, hparts, hrest, htexts⟩ := ih h
            refine ⟨hforall, fun g hg => (hparts g hg).trans (hdrop _).isInfix,
              hrest.trans (hdrop _), fun u hu => ?_⟩
            rcases List.mem_cons.mp hu with heq | hu
            · cases heq
              exact isInfix_of_isPrefixOf hpre
            · exact (htexts u hu).trans (hdrop _).isInfix
          · cases h
      | run least p group =>
          rw [matchAt] at h
          obtain ⟨k, hk, h⟩ := List.exists_of_findSome?_eq_some h
          obtain ⟨m, hm, hgroups⟩ := Option.map_eq_some_iff.mp h
          obtain ⟨hforall, hparts, hrest, htexts⟩ := ih hm
          obtain ⟨hleast, hlongest⟩ := le_of_mem_extents hk
          have htexts' : ∀ t, Item.text t ∈ Item.run least p group :: items → t <:+: s := by
            intro t ht
            rcases List.mem_cons.mp ht with heq | ht
            · cases heq
            · exact (htexts t ht).trans (hdrop _).isInfix
          cases group with
          | false =>
              cases hgroups
              exact ⟨hforall, fun g hg => (hparts g hg).trans (hdrop _).isInfix,
                hrest.trans (hdrop _), htexts'⟩
          | true =>
              cases hgroups
              have hlength : (s.take k).length = k := by
                rw [List.length_take]
                exact min_eq_left (hlongest.trans (List.takeWhile_sublist p).length_le)
              refine ⟨.cons ⟨by rw [hlength]; exact hleast, all_take_takeWhile hlongest⟩ hforall,
                fun g hg => ?_, hrest.trans (hdrop _), htexts'⟩
              rcases List.mem_cons.mp hg with rfl | hg
              · have htake := List.take_prefix k s
                exact htake.isInfix
              · exact (hparts g hg).trans (hdrop _).isInfix
      | oneOf ts =>
          rw [matchAt] at h
          obtain ⟨t, ht, h⟩ := List.exists_of_findSome?_eq_some h
          split at h
          · rename_i hpre
            obtain ⟨m, hm, hgroups⟩ := Option.map_eq_some_iff.mp h
            obtain ⟨hforall, hparts, hrest, htexts⟩ := ih hm
            cases hgroups
            refine ⟨.cons ht hforall, fun g hg => ?_, hrest.trans (hdrop _), fun u hu => ?_⟩
            · rcases List.mem_cons.mp hg with rfl | hg
              · exact isInfix_of_isPrefixOf hpre
              · exact (hparts g hg).trans (hdrop _).isInfix
            · rcases List.mem_cons.mp hu with heq | hu
              · cases heq
              · exact (htexts u hu).trans (hdrop _).isInfix
          · cases h

/-- A search that finds has matched at some suffix. -/
theorem matchAt_of_searchFrom {start : Option Nat → Bool} {items : List Item} {before : Option Nat}
    {s : Str} {m : List Str × Str} (h : searchFrom start items before s = some m) :
    ∃ t, t <:+ s ∧ matchAt items t = some m := by
  induction s generalizing before with
  | nil =>
      rw [searchFrom] at h
      split at h
      · exact ⟨[], List.suffix_rfl, h⟩
      · cases h
  | cons c cs ih =>
      rw [searchFrom] at h
      split at h
      · rename_i found hfound
        cases h
        split at hfound
        · exact ⟨c :: cs, List.suffix_rfl, hfound⟩
        · cases hfound
      · obtain ⟨t, hsuffix, ht⟩ := ih h
        exact ⟨t, hsuffix.trans (List.suffix_cons c cs), ht⟩

/-- The same of a match found anywhere. -/
theorem searchFrom_groups {start : Option Nat → Bool} {items : List Item} {before : Option Nat}
    {s rest : Str} {groups : List Str} (h : searchFrom start items before s = some (groups, rest)) :
    List.Forall₂ Item.Accepts (items.filter Item.isGroup) groups ∧
      (∀ g ∈ groups, g <:+: s) ∧ ∀ t, Item.text t ∈ items → t <:+: s := by
  obtain ⟨t, hsuffix, hmatch⟩ := matchAt_of_searchFrom h
  obtain ⟨hforall, hparts, -, htexts⟩ := matchAt_groups hmatch
  exact ⟨hforall, fun g hg => (hparts g hg).trans hsuffix.isInfix,
    fun u hu => (htexts u hu).trans hsuffix.isInfix⟩

/-- The text is the pieces that the items stand for, and the rest; the groups are
those of its pieces. -/
def Consists : List Item → Str → List Str → Str → Prop
  | [], s, groups, rest => groups = [] ∧ s = rest
  | .text t :: items, s, groups, rest => ∃ s', s = t ++ s' ∧ Consists items s' groups rest
  | .run least p group :: items, s, groups, rest =>
      ∃ g s' groups', least ≤ g.length ∧ (∀ c ∈ g, p c = true) ∧ s = g ++ s' ∧
        groups = (if group then g :: groups' else groups') ∧ Consists items s' groups' rest
  | .oneOf ts :: items, s, groups, rest =>
      ∃ t ∈ ts, ∃ s' groups', s = t ++ s' ∧ groups = t :: groups' ∧ Consists items s' groups' rest

/-- A text is its prefix and what follows. -/
theorem eq_append_drop {t s : Str} (h : t.isPrefixOf s = true) : s = t ++ s.drop t.length := by
  rw [List.isPrefixOf_iff_prefix] at h
  obtain ⟨u, rfl⟩ := h
  rw [List.drop_left]

/-- What a match consumed is made up as the items say. -/
theorem consists_of_matchAt {items : List Item} {s rest : Str} {groups : List Str}
    (h : matchAt items s = some (groups, rest)) : Consists items s groups rest := by
  induction items generalizing s groups rest with
  | nil =>
      cases h
      exact ⟨rfl, rfl⟩
  | cons item items ih =>
      cases item with
      | text t =>
          rw [matchAt] at h
          split at h
          · next hpre => exact ⟨_, eq_append_drop hpre, ih h⟩
          · cases h
      | run least p group =>
          rw [matchAt] at h
          obtain ⟨k, hk, h⟩ := List.exists_of_findSome?_eq_some h
          obtain ⟨m, hm, hgroups⟩ := Option.map_eq_some_iff.mp h
          obtain ⟨hleast, hlongest⟩ := le_of_mem_extents hk
          have hlength : (s.take k).length = k := by
            rw [List.length_take]
            exact min_eq_left (hlongest.trans (List.takeWhile_sublist p).length_le)
          cases hgroups
          exact ⟨s.take k, s.drop k, m.1, by rw [hlength]; exact hleast,
            all_take_takeWhile hlongest, (List.take_append_drop k s).symm, rfl, ih hm⟩
      | oneOf ts =>
          rw [matchAt] at h
          obtain ⟨t, ht, h⟩ := List.exists_of_findSome?_eq_some h
          split at h
          · next hpre =>
              obtain ⟨m, hm, hgroups⟩ := Option.map_eq_some_iff.mp h
              cases hgroups
              exact ⟨t, ht, _, m.1, eq_append_drop hpre, rfl, ih hm⟩
          · cases h

/-! ## runs of a class in a text -/

section Runs

variable {p : Nat → Bool} {x y a b s : Str}

/-- The text does not go on with a character of the class. -/
def Stops (p : Nat → Bool) (s : Str) : Prop := ∀ c, s.head? = some c → p c = false

theorem stops_cons {c : Nat} {cs : Str} (h : p c = false) : Stops p (c :: cs) := by
  intro d hd
  cases hd
  exact h

/-- A text that starts with a character outside the class stops the run. -/
theorem stops_of_mem (hne : x ≠ []) (h : ∀ c ∈ x, p c = false) :
    Stops p (x ++ s) := by
  obtain ⟨c, cs, rfl⟩ := List.exists_cons_of_ne_nil hne
  exact stops_cons (h c (List.mem_cons_self ..))

/-- Before a run stands a character of `sp`. -/
theorem stops_before {u sp : Str} (hone : 1 ≤ sp.length)
    (h : ∀ c ∈ sp, p c = false) : Stops p (u ++ sp).reverse := by
  rw [List.reverse_append]
  exact stops_of_mem (by simpa using List.length_pos_iff.mp hone)
    fun c hc => h c (List.mem_reverse.mp hc)

/-- A stopping text still stops it after more of its kind. -/
theorem stops_append {sp : Str} (h : ∀ c ∈ sp, p c = false) (ha : Stops p a) :
    Stops p (sp ++ a) := by
  cases sp with
  | nil => exact ha
  | cons c cs => exact stops_cons (h c (List.mem_cons_self ..))

/-- A run followed by something that stops it is taken whole. -/
theorem takeWhile_run (hx : ∀ c ∈ x, p c = true) (hs : Stops p s) : (x ++ s).takeWhile p = x := by
  rw [List.takeWhile_append_of_pos hx]
  cases s with
  | nil => rw [List.takeWhile_nil, List.append_nil]
  | cons c cs =>
      rw [List.takeWhile_cons_of_neg (by rw [hs c rfl]; exact Bool.false_ne_true), List.append_nil]

/-- A run is told apart from what follows it. -/
theorem run_inj (hx : ∀ c ∈ x, p c = true) (hy : ∀ c ∈ y, p c = true) (ha : Stops p a)
    (hb : Stops p b) (h : x ++ a = y ++ b) : x = y ∧ a = b := by
  have hxy : x = y := by rw [← takeWhile_run hx ha, h, takeWhile_run hy hb]
  subst hxy
  exact ⟨rfl, List.append_cancel_left h⟩

/-- A run is told apart from what comes before it. -/
theorem run_inj_last (hx : ∀ c ∈ x, p c = true) (hy : ∀ c ∈ y, p c = true)
    (ha : Stops p a.reverse) (hb : Stops p b.reverse) (h : a ++ x = b ++ y) : a = b ∧ x = y := by
  have hrev : x.reverse ++ a.reverse = y.reverse ++ b.reverse := by
    rw [← List.reverse_append, h, List.reverse_append]
  obtain ⟨hxy, hab⟩ := run_inj (fun c hc => hx c (List.mem_reverse.mp hc))
    (fun c hc => hy c (List.mem_reverse.mp hc)) ha hb hrev
  exact ⟨List.reverse_injective hab, List.reverse_injective hxy⟩

end Runs

/-! ## matching a text that is known -/

section Known

variable {items : List Item} {p : Nat → Bool} {t g s : Str} {m : List Str × Str}

/-- A literal item consumes its text. -/
theorem matchAt_text (t : Str) (items : List Item) (s : Str) :
    matchAt (.text t :: items) (t ++ s) = matchAt items s := by
  rw [matchAt, if_pos (List.isPrefixOf_iff_prefix.mpr (List.prefix_append t s)), List.drop_left]

/-- The longest extent of a run matches when what follows it does. -/
theorem matchAt_run {least : Nat} (group : Bool) (hg : ∀ c ∈ g, p c = true)
    (hleast : least ≤ g.length) (hs : Stops p s) (hm : matchAt items s = some m) :
    matchAt (.run least p group :: items) (g ++ s) =
      some (if group then g :: m.1 else m.1, m.2) := by
  obtain ⟨k, hk⟩ : ∃ k, g.length + 1 - least = k + 1 := ⟨g.length - least, by omega⟩
  rw [matchAt, takeWhile_run hg hs, extents, hk, List.range_succ_eq_map, List.map_cons,
    List.findSome?_cons, Nat.sub_zero, List.drop_left, hm, List.take_left]
  rfl

/-- An alternative consumes the one text that fits. -/
theorem matchAt_oneOf {ts : List Str} (ht : t ∈ ts)
    (honly : ∀ u ∈ ts, u.isPrefixOf (t ++ s) = true → u = t) (hm : matchAt items s = some m) :
    matchAt (.oneOf ts :: items) (t ++ s) = some (t :: m.1, m.2) := by
  rw [matchAt]
  induction ts with
  | nil => cases ht
  | cons u ts ih =>
      rw [List.findSome?_cons]
      cases hpre : u.isPrefixOf (t ++ s) with
      | true =>
          obtain rfl := honly u (List.mem_cons_self ..) hpre
          rw [if_pos rfl, List.drop_left, hm]
          rfl
      | false =>
          rw [if_neg Bool.false_ne_true]
          refine ih ?_ fun v hv => honly v (List.mem_cons_of_mem _ hv)
          obtain rfl | ht := List.mem_cons.mp ht
          · rw [List.isPrefixOf_iff_prefix.mpr (List.prefix_append t s)] at hpre
            cases hpre
          · exact ht

/-- A match that is there is found, or one before it. -/
theorem search_isSome (ht : t <:+ s) (hm : (matchAt items t).isSome) : (search items s).isSome := by
  have hfound : ∀ before, (searchFrom (fun _ => true) items before s).isSome := by
    induction s with
    | nil =>
        intro before
        rw [List.suffix_nil.mp ht] at hm
        rw [searchFrom, if_pos rfl]
        exact hm
    | cons c cs ih =>
        intro before
        rw [searchFrom, if_pos rfl]
        cases hhere : matchAt items (c :: cs) with
        | some m => rfl
        | none =>
            obtain rfl | ht := List.suffix_cons_iff.mp ht
            · rw [hhere] at hm
              cases hm
            · exact ih ht (some c)
  exact hfound none

/-- The groups of a search, in a text where every match has the same ones. -/
theorem search_groups {groups : List Str} (ht : t <:+ s) (hm : matchAt items t = some m)
    (honly : ∀ t groups' rest, t <:+ s → Consists items t groups' rest → groups' = groups) :
    ∃ rest, search items s = some (groups, rest) := by
  have hsome := search_isSome ht (by rw [hm]; rfl)
  obtain ⟨⟨found, rest⟩, hfound⟩ := Option.isSome_iff_exists.mp hsome
  obtain ⟨t', ht', hmatch⟩ := matchAt_of_searchFrom hfound
  rw [honly t' found rest ht' (consists_of_matchAt hmatch)] at hfound
  exact ⟨rest, hfound⟩

/-! ### texts without a match -/

/-- Nowhere in the text can the literal stand, whatever follows. -/
def skips (t : Str) : Str → Bool
  | [] => true
  | c :: cs => !t.isPrefixOf (c :: cs) && !(c :: cs).isPrefixOf t && skips t cs

variable {start : Option Nat → Bool} {before : Option Nat}

/-- The search passes over a stretch where the first literal does not begin. -/
theorem searchFrom_skip {pre : Str} (h : skips t pre = true) (before : Option Nat) (s : Str) :
    searchFrom start (.text t :: items) before (pre ++ s) =
      searchFrom start (.text t :: items) (pre.getLast?.or before) s := by
  induction pre generalizing before with
  | nil => rfl
  | cons c cs ih =>
      rw [skips, Bool.and_eq_true, Bool.and_eq_true, Bool.not_eq_true', Bool.not_eq_true'] at h
      obtain ⟨⟨hshort, hlong⟩, hrest⟩ := h
      have hpre : t.isPrefixOf (c :: cs ++ s) = false := by
        rw [Bool.eq_false_iff, ne_eq, List.isPrefixOf_iff_prefix]
        intro hpre
        obtain hpre | hpre := List.prefix_or_prefix_of_prefix hpre (List.prefix_append (c :: cs) s)
        · rw [List.isPrefixOf_iff_prefix.mpr hpre] at hshort
          cases hshort
        · rw [List.isPrefixOf_iff_prefix.mpr hpre] at hlong
          cases hlong
      have hnone : matchAt (.text t :: items) (c :: (cs ++ s)) = none := by
        rw [matchAt]
        exact if_neg (by rw [← List.cons_append, hpre]; exact Bool.false_ne_true)
      rw [List.cons_append, searchFrom, hnone, ite_self, ih hrest]
      cases cs with
      | nil => rfl
      | cons d ds =>
          rw [List.getLast?_cons_cons]
          cases hlast : (d :: ds).getLast? with
          | none => simp at hlast
          | some e => rfl

/-- It finds where the items match. -/
theorem searchFrom_here (hstart : start before = true) (hm : matchAt items s = some m) :
    searchFrom start items before s = some m := by
  cases s with
  | nil => rw [searchFrom, if_pos hstart, hm]
  | cons c cs => rw [searchFrom, if_pos hstart, hm]

/-- What stands before a match does not matter to `re.search`. -/
theorem search_eq (items : List Item) (before : Option Nat) (s : Str) :
    searchFrom (fun _ => true) items before s = search items s := by
  cases s with
  | nil => rfl
  | cons c cs => rfl

/-- The same for a search without a boundary. -/
theorem search_skip {pre : Str} (h : skips t pre = true) (s : Str) :
    search (.text t :: items) (pre ++ s) = search (.text t :: items) s := by
  rw [search, searchFrom_skip h, search_eq]

/-- A position without a match is passed. -/
theorem search_step {c : Nat} {cs : Str} (h : matchAt items (c :: cs) = none) :
    search items (c :: cs) = search items cs := by
  rw [search, searchFrom, if_pos rfl, h]
  exact search_eq items (some c) cs

/-- A match at the front is the one found. -/
theorem search_here (hm : matchAt items s = some m) : search items s = some m :=
  searchFrom_here rfl hm

end Known

end Pattern

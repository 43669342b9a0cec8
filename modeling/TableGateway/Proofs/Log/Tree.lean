import TableGateway.Log.Tree
import TableGateway.Proofs.Entries

/-! # Levels in the tree of loggers

Every logger hangs from one whose name is a shorter prefix of its own, so that the way up ends at
the root. Where no logger on this way has a level, that of the root counts. -/

namespace TableGateway.Log

/-! ## Names of ancestors -/

theorem suffix_of_mem_ancestorsReversed {fuel : Nat} {text ancestor : Text}
    (h : ancestor ∈ ancestorsReversed fuel text) :
    ancestor.reverse <:+ text ∧ ancestor.length < text.length := by
  induction fuel generalizing text with
  | zero => cases h
  | succ fuel ih =>
      have hsuffix : Text.fromFirst '.' text <:+ text := List.dropWhile_suffix _
      rw [ancestorsReversed] at h
      split at h
      next dot p rest hcut =>
        rw [hcut] at hsuffix
        have hlength := hsuffix.length_le
        simp only [List.length_cons] at hlength
        rcases List.mem_cons.mp h with rfl | h
        · refine ⟨?_, ?_⟩
          · rw [List.reverse_reverse]
            exact (List.suffix_cons dot (p :: rest)).trans hsuffix
          · simp only [List.length_reverse, List.length_cons]
            omega
        · obtain ⟨hs, hlt⟩ := ih h
          have hrest : rest <:+ dot :: p :: rest := ⟨[dot, p], rfl⟩
          exact ⟨hs.trans (hrest.trans hsuffix), by omega⟩
      next => cases h

/-- The ancestors of a name are shorter prefixes of it. -/
theorem prefix_of_mem_ancestors {name ancestor : Text} (h : ancestor ∈ ancestors name) :
    ancestor <+: name ∧ ancestor ≠ name := by
  obtain ⟨hs, hlt⟩ := suffix_of_mem_ancestorsReversed h
  rw [List.length_reverse] at hlt
  refine ⟨List.reverse_suffix.mp hs, ?_⟩
  rintro rfl
  exact Nat.lt_irrefl _ hlt

namespace Tree

/-! ## Links -/

/-- The root is in the tree, and every other logger hangs from one in the tree whose name is a
shorter prefix of its own. -/
structure Linked (tree : Tree) : Prop where
  root : [] ∈ Entries.keys tree.nodes
  parents : ∀ name node, Entries.get? tree.nodes name = some node → name ≠ [] →
    node.parent ∈ Entries.keys tree.nodes ∧ node.parent <+: name ∧ node.parent ≠ name

theorem linked_start : Linked {} := by
  refine ⟨by decide, ?_⟩
  intro name node hg hne
  rw [Entries.get?_cons] at hg
  split at hg
  next h => exact absurd h.symm hne
  next => cases hg

theorem contains_iff {tree : Tree} {name : Text} :
    tree.contains name = true ↔ name ∈ Entries.keys tree.nodes := by
  unfold contains
  cases hg : Entries.get? tree.nodes name with
  | none => simp [Entries.get?_eq_none_iff.mp hg]
  | some node => simp [Entries.mem_keys_of_get? hg]

/-- The logger that a new one hangs from is in the tree and spelled by the start of its name. -/
theorem Linked.parentOf {tree : Tree} (h : tree.Linked) {name : Text} (hne : name ≠ []) :
    tree.parentOf name ∈ Entries.keys tree.nodes ∧ tree.parentOf name <+: name ∧
      tree.parentOf name ≠ name := by
  unfold Tree.parentOf
  cases hf : (ancestors name).find? tree.contains with
  | none => exact ⟨h.root, List.nil_prefix, hne.symm⟩
  | some ancestor =>
      have hin : tree.contains ancestor = true := List.find?_some hf
      exact ⟨contains_iff.mp hin, prefix_of_mem_ancestors (List.mem_of_find?_eq_some hf)⟩

/-- The loggers after a new one has come between some of them and the ones they hung from. -/
theorem get?_moved (nodes : List (Text × Node)) (name other : Text) :
    Entries.get? (nodes.map fun child =>
        if comesBetween name child then (child.1, { child.2 with parent := name }) else child)
      other =
      (Entries.get? nodes other).map fun node =>
        if comesBetween name (other, node) then { node with parent := name } else node := by
  induction nodes with
  | nil => rfl
  | cons child rest ih =>
      obtain ⟨key, node⟩ := child
      have hhead : (if comesBetween name (key, node) then (key, { node with parent := name })
          else (key, node)) =
          (key, if comesBetween name (key, node) then { node with parent := name } else node) := by
        split <;> rfl
      rw [List.map_cons, hhead, Entries.get?_cons, Entries.get?_cons, ih]
      by_cases hk : key = other
      · subst hk
        simp
      · simp [hk]

theorem keys_moved (nodes : List (Text × Node)) (name : Text) :
    Entries.keys (nodes.map fun child =>
        if comesBetween name child then (child.1, { child.2 with parent := name }) else child) =
      Entries.keys nodes := by
  unfold Entries.keys
  rw [List.map_map]
  apply List.map_congr_left
  intro child _
  simp only [Function.comp]
  split <;> rfl

theorem Linked.add {tree : Tree} (h : tree.Linked) (name : Text) : (tree.add name).Linked := by
  unfold Tree.add
  split
  · exact h
  next hnew =>
    rw [contains_iff] at hnew
    have hne : name ≠ [] := fun he => hnew (he ▸ h.root)
    refine ⟨?_, ?_⟩
    · simp [keys_moved, h.root]
    · intro other node hg hother
      simp only [Entries.keys_append, keys_moved, List.mem_append]
      rw [Entries.get?_append, get?_moved, Option.or_eq_some_iff, Option.map_eq_some_iff] at hg
      rcases hg with ⟨old, hold, rfl⟩ | ⟨-, hg⟩
      · obtain ⟨hin, hstart⟩ := h.parents other old hold hother
        split
        next hmoved =>
          -- The new logger is an ancestor of those that now hang from it.
          have hanc : name ∈ ancestors other := by
            simp only [comesBetween, Bool.and_eq_true, List.contains_iff_mem] at hmoved
            exact hmoved.1
          exact ⟨Or.inr (by simp [Entries.keys]), prefix_of_mem_ancestors hanc⟩
        next => exact ⟨Or.inl hin, hstart⟩
      · rw [Entries.get?_cons] at hg
        split at hg
        next he =>
          subst he
          obtain rfl := Option.some.inj hg
          obtain ⟨hin, hstart⟩ := h.parentOf hne
          exact ⟨Or.inl hin, hstart⟩
        next => cases hg

/-- Setting a level leaves the links as they are. -/
theorem Linked.setLevel {tree : Tree} (h : tree.Linked) (name : Text) (level : Level) :
    (tree.setLevel name level).Linked := by
  unfold Tree.setLevel
  refine ⟨Entries.mem_keys_put.mpr (Or.inr h.root), ?_⟩
  intro other node hg hother
  rw [Entries.get?_put] at hg
  simp only [Entries.mem_keys_put]
  split at hg
  next he =>
    subst he
    obtain rfl := Option.some.inj hg
    cases hold : Entries.get? tree.nodes other with
    | none => exact ⟨Or.inr h.root, List.nil_prefix, hother.symm⟩
    | some old =>
        obtain ⟨hin, hstart⟩ := h.parents other old hold hother
        exact ⟨Or.inr hin, hstart⟩
  next =>
    obtain ⟨hin, hstart⟩ := h.parents other node hg hother
    exact ⟨Or.inr hin, hstart⟩

/-- Asking whether a level is let through leaves the links as they are. -/
theorem Linked.settle {tree : Tree} (h : tree.Linked) (name : Text) (level : Level) :
    (tree.settle name level).Linked := by
  unfold Tree.settle
  split
  · exact h
  · exact ⟨h.root, h.parents⟩

/-! ## Levels -/

/-- The loggers that are spelled with fewer code points than a name. -/
def shorter (nodes : List (Text × Node)) (name : Text) : List (Text × Node) :=
  nodes.filter fun entry => entry.1.length < name.length

/-- A logger in the tree with a shorter name has fewer below itself. -/
theorem length_shorter_lt {nodes : List (Text × Node)} {one other : Text}
    (hin : one ∈ Entries.keys nodes) (hlt : one.length < other.length) :
    (shorter nodes one).length < (shorter nodes other).length := by
  have hsub : shorter nodes one =
      (shorter nodes other).filter fun entry => entry.1.length < one.length := by
    unfold shorter
    rw [List.filter_filter]
    apply List.filter_congr
    intro entry _
    simp only [← Bool.decide_and, decide_eq_decide]
    omega
  obtain ⟨entry, hentry, rfl⟩ := List.mem_map.mp hin
  rw [hsub, List.length_filter_lt_length_iff_exists]
  refine ⟨entry, List.mem_filter.mpr ⟨hentry, by simpa using hlt⟩, by simp⟩

/-- The level that a logger in the tree has of its own. -/
def ownLevel? (tree : Tree) (name : Text) : Option Level :=
  (Entries.get? tree.nodes name).map Node.level

/-- Where a logger and those on its way to the root have no level, that of the root is found. -/
theorem levelAbove_of_unset {tree : Tree} (h : tree.Linked) {rootLevel : Level}
    (hroot : tree.ownLevel? [] = some rootLevel) {fuel : Nat} {name : Text}
    (hin : name ∈ Entries.keys tree.nodes)
    (hunset : ∀ other level, other ≠ [] → other <+: name → tree.ownLevel? other = some level →
      level = .unset)
    (hfuel : (shorter tree.nodes name).length < fuel) :
    levelAbove tree.nodes fuel name = rootLevel := by
  -- Each step leads to a shorter name in the tree, of which there are fewer and fewer.
  induction fuel generalizing name with
  | zero => exact absurd hfuel (Nat.not_lt_zero _)
  | succ fuel ih =>
      obtain ⟨node, hnode⟩ := Entries.exists_get?_of_mem_keys hin
      have hown : tree.ownLevel? name = some node.level := by rw [ownLevel?, hnode, Option.map_some]
      rw [levelAbove, hnode, Option.getD_some]
      by_cases hne : name = []
      · subst hne
        have hlevel : node.level = rootLevel := Option.some.inj (hown.symm.trans hroot)
        have hstop : ¬ (node.level = .unset ∧ ([] : Text) ≠ Text.ofString "") := fun hn => hn.2 rfl
        rw [if_neg hstop, hlevel]
      · obtain ⟨hparent, hstart, hproper⟩ := h.parents name node hnode hne
        have hlt : node.parent.length < name.length := by
          refine Nat.lt_of_le_of_ne hstart.length_le ?_
          intro he
          exact hproper (hstart.eq_of_length he)
        have hcount := length_shorter_lt hparent hlt
        have hstep : node.level = .unset ∧ name ≠ Text.ofString "" :=
          ⟨hunset name node.level hne List.prefix_rfl hown, hne⟩
        rw [if_pos hstep]
        apply ih hparent
        · intro other level hother hp hl
          exact hunset other level hother (hp.trans hstart) hl
        · omega

/-- Whether a logger has none above it with a level but the root, which has its first one. -/
structure QuietAbove (tree : Tree) (name : Text) : Prop where
  named : name ≠ []
  root : tree.ownLevel? [] = some .warning
  unset : ∀ other level, other ≠ [] → other ≠ name → other <+: name →
    tree.ownLevel? other = some level → level = .unset

/-- A new logger changes no level. -/
theorem ownLevel?_add (tree : Tree) {name other : Text} (h : other ≠ name) :
    (tree.add name).ownLevel? other = tree.ownLevel? other := by
  unfold Tree.add ownLevel?
  split
  · rfl
  · rw [Entries.get?_append, get?_moved, Entries.get?_cons, if_neg h.symm, Entries.get?_nil,
      Option.or_none, Option.map_map]
    congr 1
    funext node
    simp only [Function.comp]
    split <;> rfl

theorem ownLevel?_setLevel (tree : Tree) (name : Text) (level : Level) (other : Text) :
    (tree.setLevel name level).ownLevel? other =
      if other = name then some level else tree.ownLevel? other := by
  unfold Tree.setLevel ownLevel?
  rw [Entries.get?_put]
  split <;> rfl

end Tree

/-- The level that a level stands for once it is set, where no logger above has one. -/
def Level.inForce : Level → Level
  | .unset => .warning
  | level => level

theorem Level.inForce_of_ne {level : Level} (h : level ≠ .unset) : level.inForce = level := by
  cases level with
  | unset => exact absurd rfl h
  | debug | info | warning | error | critical => rfl

namespace Tree

/-- A level counts once it is set, and a quiet logger without one goes by that of the root. -/
theorem effectiveLevel_opened {tree : Tree} (h : tree.Linked) {name : Text} {level : Level}
    (hquiet : level = .unset → tree.QuietAbove name) :
    ((tree.add name).setLevel name level).effectiveLevel name = level.inForce := by
  by_cases hl : level = .unset
  · have hq := hquiet hl
    subst hl
    have hroot : ((tree.add name).setLevel name .unset).ownLevel? [] = some .warning := by
      rw [ownLevel?_setLevel, if_neg hq.named.symm, ownLevel?_add tree hq.named.symm, hq.root]
    refine levelAbove_of_unset ((h.add name).setLevel name .unset) hroot
      (Entries.mem_keys_put.mpr (Or.inl rfl)) ?_ (Nat.lt_succ_of_le (List.length_filter_le _ _))
    intro other level hother hp hown
    rw [ownLevel?_setLevel] at hown
    split at hown
    next => exact (Option.some.inj hown).symm
    next hne =>
      rw [ownLevel?_add tree hne] at hown
      exact hq.unset other level hother hne hp hown
  · rw [effectiveLevel_setLevel _ _ hl, Level.inForce_of_ne hl]

end Tree

end TableGateway.Log

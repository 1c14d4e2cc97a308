import OpenAdb.Lib.PyText

namespace OpenAdb.Lib.SlashPath

open OpenAdb.Lib.PyText

/-- The names between the slashes. -/
def components (path : Text) : List Text := (path.splitOn '/').filter (· ≠ [])

def render (names : List Text) : Text := '/' :: ['/'].intercalate names

structure IsName (name : Text) : Prop where
  ne_nil : name ≠ []
  no_slash : '/' ∉ name

variable {name path : Text} {names : List Text}

theorem components_append_slash (a b : Text) :
    components (a ++ '/' :: b) = components a ++ components b := by
  have hsplit : List.splitOnP (· == '/') (a ++ '/' :: b) = List.splitOnP (· == '/') a ++ List.splitOnP (· == '/') b :=
    List.splitOnP_append_cons a b rfl
  rw [components, List.splitOn_eq_splitOnP, hsplit, List.filter_append]
  rfl

theorem components_slash (b : Text) : components ('/' :: b) = components b := components_append_slash [] b

theorem components_of_not_mem (h : '/' ∉ name) : components name = if name = [] then [] else [name] := by
  have hsplit : name.splitOn '/' = [name] := by
    rw [List.splitOn_eq_splitOnP]
    apply List.splitOnP_eq_singleton
    intro c hc
    exact beq_eq_false_iff_ne.mpr (ne_of_mem_of_not_mem hc h)
  rw [components, hsplit]
  by_cases hname : name = []
  · subst hname
    rfl
  · rw [if_neg hname, List.filter_cons_of_pos (by simpa using hname), List.filter_nil]

theorem components_name (h : IsName name) : components name = [name] := by
  rw [components_of_not_mem h.no_slash, if_neg h.ne_nil]

/-- A path is a name, or a name, a slash and the rest of the path. -/
@[elab_as_elim]
theorem slash_induction {motive : Text → Prop} (plain : ∀ name, '/' ∉ name → motive name)
    (slash : ∀ name rest, '/' ∉ name → motive rest → motive (name ++ '/' :: rest)) (path : Text) :
    motive path := by
  induction hn : path.length using Nat.strong_induction_on generalizing path with
  | h n ih =>
    by_cases h : '/' ∈ path
    · obtain ⟨name, rest, hpath, hname⟩ := List.eq_append_cons_of_mem h
      subst hpath
      have hlt : rest.length < n := by
        rw [← hn, List.length_append, List.length_cons]
        omega
      exact slash name rest hname (ih rest.length hlt rest rfl)
    · exact plain path h

theorem isName_of_mem_plain {part : Text} (hpart : '/' ∉ part) (h : name ∈ components part) : IsName name := by
  rw [components_of_not_mem hpart] at h
  by_cases hne : part = []
  · rw [if_pos hne] at h
    cases h
  · rw [if_neg hne, List.mem_singleton] at h
    subst h
    exact ⟨hne, hpart⟩

theorem isName_of_mem_components (h : name ∈ components path) : IsName name := by
  induction path using slash_induction with
  | plain part hpart => exact isName_of_mem_plain hpart h
  | slash part rest hpart ih =>
    rw [components_append_slash, List.mem_append] at h
    exact h.elim (isName_of_mem_plain hpart) ih

/-- The names hold every character of the path but the slashes. -/
theorem flatten_components (path : Text) : (components path).flatten = path.filter (· ≠ '/') := by
  have hplain : ∀ name, '/' ∉ name → (components name).flatten = name.filter (· ≠ '/') := by
    intro name hname
    have hall : name.filter (· ≠ '/') = name := by
      rw [List.filter_eq_self]
      intro c hc
      exact decide_eq_true (ne_of_mem_of_not_mem hc hname)
    rw [components_of_not_mem hname, hall]
    by_cases hne : name = []
    · rw [if_pos hne, hne]
      rfl
    · rw [if_neg hne, List.flatten_singleton]
  induction path using slash_induction with
  | plain name hname => exact hplain name hname
  | slash name rest hname ih =>
    rw [components_append_slash, List.flatten_append, hplain name hname, ih, List.filter_append,
      List.filter_cons_of_neg (by decide)]

theorem mem_of_mem_components {c : Char} (h : name ∈ components path) (hc : c ∈ name) : c ∈ path := by
  have hflat : c ∈ (components path).flatten := List.mem_flatten.mpr ⟨name, h, hc⟩
  rw [flatten_components] at hflat
  exact List.mem_of_mem_filter hflat

theorem exists_component {c : Char} (h : c ∈ path) (hc : c ≠ '/') : ∃ name ∈ components path, c ∈ name := by
  have hflat : c ∈ path.filter (· ≠ '/') := List.mem_filter.mpr ⟨h, decide_eq_true hc⟩
  rw [← flatten_components] at hflat
  exact List.mem_flatten.mp hflat

theorem render_cons (name : Text) (h : names ≠ []) : render (name :: names) = '/' :: name ++ render names := by
  rw [render, List.intercalate_cons_of_ne_nil h, render]
  simp

theorem render_concat (names : List Text) (name : Text) :
    render (names ++ [name]) = (if names = [] then [] else render names) ++ '/' :: name := by
  induction names with
  | nil => simp [render]
  | cons first names ih =>
    have hne : names ++ [name] ≠ [] := List.append_ne_nil_of_right_ne_nil names (List.cons_ne_nil name [])
    rw [List.cons_append, render_cons first hne, ih, if_neg (List.cons_ne_nil first names)]
    by_cases hnames : names = []
    · subst hnames
      simp [render]
    · rw [if_neg hnames, render_cons first hnames, List.append_assoc]

theorem components_render (h : ∀ name ∈ names, IsName name) : components (render names) = names := by
  induction names with
  | nil => rfl
  | cons first names ih =>
    obtain ⟨hfirst, hnames⟩ := List.forall_mem_cons.mp h
    by_cases hne : names = []
    · subst hne
      rw [render, List.intercalate_singleton, components_slash, components_name hfirst]
    · have htail : components (render (first :: names)) = components (first ++ '/' :: ['/'].intercalate names) := by
        rw [render_cons _ hne, List.cons_append, components_slash]
        rfl
      rw [htail, components_append_slash, components_name hfirst, ← components_slash, ← render, ih hnames,
        List.singleton_append]

theorem render_injOn {others : List Text} (h : ∀ name ∈ names, IsName name) (h' : ∀ name ∈ others, IsName name)
    (heq : render names = render others) : names = others := by
  rw [← components_render h, heq, components_render h']

end OpenAdb.Lib.SlashPath

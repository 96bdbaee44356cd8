import Skillsync.Scalars

set_option autoImplicit false

namespace Skillsync

/-- `PathError`. -/
inductive PathError
  | invalidUtf8
  | empty
  | absolute
  | nul
  | emptyComponent
  | dotComponent
  | dotDotComponent
  | collision (first second : String)
deriving DecidableEq

/-- `str::split('/')`. -/
def splitSlash (value : String) : List String :=
  (value.toList.splitOn '/').map String.ofList

/-- The components with a slash between each two. -/
def joinSlash (components : List String) : String :=
  String.ofList (['/'].intercalate (components.map String.toList))

/-- The components a path may consist of. -/
def Plain (component : String) : Prop :=
  '/' ∉ component.toList ∧ '\x00' ∉ component.toList ∧
    component ≠ "" ∧ component ≠ "." ∧ component ≠ ".."

instance : DecidablePred Plain := fun component => by
  unfold Plain
  infer_instance

theorem joinSlash_splitSlash (value : String) : joinSlash (splitSlash value) = value := by
  simp only [joinSlash, splitSlash, List.map_map, Function.comp_def, String.toList_ofList,
    List.map_id', List.intercalate_splitOn, String.ofList_toList]

theorem splitSlash_injective : Function.Injective splitSlash := by
  intro a b same
  rw [← joinSlash_splitSlash a, same, joinSlash_splitSlash]

theorem splitSlash_joinSlash {components : List String} (nonempty : components ≠ [])
    (plain : ∀ component ∈ components, Plain component) :
    splitSlash (joinSlash components) = components := by
  simp only [joinSlash, splitSlash, String.toList_ofList]
  rw [List.splitOn_intercalate '/']
  · simp only [List.map_map, Function.comp_def, String.ofList_toList, List.map_id']
  · intro letters member
    obtain ⟨component, listed, rfl⟩ := List.mem_map.mp member
    exact (plain component listed).1
  · simpa using nonempty

theorem splitSlash_append (outer inner : List Char) :
    splitSlash (String.ofList (outer ++ '/' :: inner)) =
      splitSlash (String.ofList outer) ++ splitSlash (String.ofList inner) := by
  simp only [splitSlash, String.toList_ofList, List.splitOn_append_cons_self, List.map_append]

/-- `outer` is `inner` or one of its ancestors: the test of `is_excluded`. -/
def covers (outer inner : String) : Bool :=
  decide (inner = outer) || (outer.toList ++ ['/']).isPrefixOf inner.toList

private theorem intercalate_append {α : Type} (separator : α) {front back : List (List α)}
    (frontNe : front ≠ []) (backNe : back ≠ []) :
    [separator].intercalate (front ++ back) =
      [separator].intercalate front ++ separator :: [separator].intercalate back := by
  induction front with
  | nil => exact absurd rfl frontNe
  | cons first rest ih =>
      cases rest with
      | nil =>
          obtain ⟨next, others, rfl⟩ := List.exists_cons_of_ne_nil backNe
          simp
      | cons second others =>
          have tail := ih (List.cons_ne_nil _ _)
          simp only [List.cons_append, List.intercalate_cons_cons, List.append_assoc] at tail ⊢
          rw [tail]

theorem joinSlash_append {front back : List String} (frontNe : front ≠ []) (backNe : back ≠ []) :
    (joinSlash (front ++ back)).toList =
      (joinSlash front).toList ++ '/' :: (joinSlash back).toList := by
  simp only [joinSlash, String.toList_ofList, List.map_append]
  exact intercalate_append '/' (by simpa using frontNe) (by simpa using backNe)

theorem splitSlash_ne_nil (value : String) : splitSlash value ≠ [] := by
  simp [splitSlash]

/-- A text covers the texts whose components start with its own. -/
theorem covers_iff (outer inner : String) :
    covers outer inner = true ↔ splitSlash outer <+: splitSlash inner := by
  simp only [covers, Bool.or_eq_true, decide_eq_true_eq, List.isPrefixOf_iff_prefix]
  constructor
  · rintro (rfl | ⟨rest, text⟩)
    · exact List.prefix_refl _
    · refine ⟨splitSlash (String.ofList rest), ?_⟩
      have split := splitSlash_append outer.toList rest
      rw [String.ofList_toList] at split
      rw [← split, ← String.ofList_toList (s := inner), ← text, List.append_assoc]
      rfl
  · rintro ⟨rest, components⟩
    by_cases last : rest = []
    · rw [last, List.append_nil] at components
      exact Or.inl (splitSlash_injective components).symm
    · refine Or.inr ⟨(joinSlash rest).toList, ?_⟩
      have joined := joinSlash_append (splitSlash_ne_nil outer) last
      rw [components, joinSlash_splitSlash, joinSlash_splitSlash] at joined
      rw [joined, List.append_assoc]
      rfl

/-- The check of one component in `validate`. -/
def validateComponent (component : String) : Except PathError Unit :=
  if component = "" then .error .emptyComponent
  else if component = "." then .error .dotComponent
  else if component = ".." then .error .dotDotComponent
  else .ok ()

/-- `validate`. -/
def validate (value : String) : Except PathError Unit :=
  if value = "" then .error .empty
  else if value.toList.head? = some '/' then .error .absolute
  else if '\x00' ∈ value.toList then .error .nul
  else (splitSlash value).forM validateComponent

theorem mem_splitOn {letters piece : List Char} (member : piece ∈ letters.splitOn '/') :
    '/' ∉ piece ∧ ∀ letter ∈ piece, letter ∈ letters := by
  induction letters generalizing piece with
  | nil =>
      rw [List.splitOn_nil, List.mem_singleton] at member
      simp [member]
  | cons first rest ih =>
      rw [List.splitOn_cons_eq_if_modifyHead] at member
      split at member
      · rcases List.mem_cons.mp member with rfl | later
        · simp
        · exact ⟨(ih later).1, fun letter inside =>
            List.mem_cons_of_mem _ ((ih later).2 letter inside)⟩
      · rename_i notSlash
        obtain ⟨head, others, pieces⟩ := List.exists_cons_of_ne_nil (List.splitOn_ne_nil '/' rest)
        rw [pieces, List.modifyHead_cons] at member
        rcases List.mem_cons.mp member with rfl | later
        · obtain ⟨noSlash, inside⟩ := ih (pieces ▸ List.mem_cons_self : head ∈ rest.splitOn '/')
          refine ⟨?_, ?_⟩
          · rw [List.mem_cons, not_or]
            exact ⟨fun same => notSlash (by simp [← same]), noSlash⟩
          · rintro letter (_ | ⟨_, member⟩)
            · exact List.mem_cons_self
            · exact List.mem_cons_of_mem _ (inside letter member)
        · obtain ⟨noSlash, inside⟩ := ih (pieces ▸ List.mem_cons_of_mem _ later :
            piece ∈ rest.splitOn '/')
          exact ⟨noSlash, fun letter member => List.mem_cons_of_mem _ (inside letter member)⟩

theorem mem_joinSlash {letter : Char} {components : List String}
    (member : letter ∈ (joinSlash components).toList) :
    letter = '/' ∨ ∃ component ∈ components, letter ∈ component.toList := by
  induction components with
  | nil => simp [joinSlash] at member
  | cons component rest ih =>
      by_cases last : rest = []
      · subst last
        simp only [joinSlash, List.map_cons, List.map_nil, List.intercalate_singleton,
          String.toList_ofList] at member
        exact Or.inr ⟨component, List.mem_cons_self, member⟩
      · have joined := joinSlash_append (List.cons_ne_nil component []) last
        rw [List.singleton_append] at joined
        rw [joined, List.mem_append, List.mem_cons] at member
        rcases member with first | rfl | later
        · simp only [joinSlash, List.map_cons, List.map_nil, List.intercalate_singleton,
            String.toList_ofList] at first
          exact Or.inr ⟨component, List.mem_cons_self, first⟩
        · exact Or.inl rfl
        · rcases ih later with slash | ⟨other, listed, inside⟩
          · exact Or.inl slash
          · exact Or.inr ⟨other, List.mem_cons_of_mem _ listed, inside⟩

theorem joinSlash_cons (component : String) (rest : List String) :
    ∃ more, (joinSlash (component :: rest)).toList = component.toList ++ more := by
  by_cases last : rest = []
  · exact ⟨[], by simp [last, joinSlash]⟩
  · have joined := joinSlash_append (List.cons_ne_nil component []) last
    refine ⟨'/' :: (joinSlash rest).toList, ?_⟩
    rw [List.singleton_append] at joined
    simpa only [joinSlash, List.map_cons, List.map_nil, List.intercalate_singleton,
      String.toList_ofList] using joined

theorem forM_validateComponent {components : List String}
    (checked : components.forM validateComponent = .ok ()) :
    ∀ component ∈ components, component ≠ "" ∧ component ≠ "." ∧ component ≠ ".." := by
  induction components with
  | nil => simp
  | cons component rest ih =>
      simp only [List.forM_eq_forM, List.forM_cons, validateComponent] at checked ih
      rw [List.forall_mem_cons]
      split at checked
      · cases checked
      split at checked
      · cases checked
      split at checked
      · cases checked
      · rename_i notEmpty notDot notDots
        exact ⟨⟨notEmpty, notDot, notDots⟩, ih checked⟩

/-- Plain components join to a valid path. -/
theorem validate_joinSlash {components : List String} (nonempty : components ≠ [])
    (plain : ∀ component ∈ components, Plain component) :
    validate (joinSlash components) = .ok () := by
  have checked : (splitSlash (joinSlash components)).forM validateComponent = .ok () := by
    rw [splitSlash_joinSlash nonempty plain]
    clear nonempty
    induction components with
    | nil => rfl
    | cons component rest ih =>
        rw [List.forall_mem_cons] at plain
        obtain ⟨⟨-, -, notEmpty, notDot, notDots⟩, others⟩ := plain
        simp only [List.forM_eq_forM, List.forM_cons, validateComponent, notEmpty, notDot,
          notDots, ↓reduceIte] at ih ⊢
        exact ih others
  have noNul : '\x00' ∉ (joinSlash components).toList := by
    intro member
    rcases mem_joinSlash member with slash | ⟨component, listed, inside⟩
    · exact absurd slash (by decide)
    · exact (plain component listed).2.1 inside
  obtain ⟨first, rest, rfl⟩ := List.exists_cons_of_ne_nil nonempty
  obtain ⟨noSlash, -, notEmpty, -⟩ := plain first List.mem_cons_self
  obtain ⟨more, text⟩ := joinSlash_cons first rest
  obtain ⟨letter, letters, spelled⟩ : ∃ letter letters, first.toList = letter :: letters := by
    refine List.exists_cons_of_ne_nil fun empty => notEmpty ?_
    rw [← String.ofList_toList (s := first), empty]
  rw [spelled, List.cons_append] at text
  have start : (joinSlash (first :: rest)).toList.head? ≠ some '/' := by
    rw [text, List.head?_cons, ne_eq, Option.some.injEq]
    rintro rfl
    exact noSlash (spelled ▸ List.mem_cons_self)
  have present : joinSlash (first :: rest) ≠ "" := by
    intro empty
    rw [empty] at text
    cases text
  simp only [validate, present, start, noNul, checked, ↓reduceIte]

/-- A validated relative path. -/
structure ProtocolPath where
  text : String
  valid : validate text = .ok ()
deriving DecidableEq

namespace ProtocolPath

theorem ext_text {a b : ProtocolPath} (same : a.text = b.text) : a = b := by
  cases a
  cases b
  simpa using same

instance : LinearOrder ProtocolPath := LinearOrder.lift' text fun _ _ => ext_text

instance : Std.TransOrd ProtocolPath := inferInstance

instance : Std.LawfulEqOrd ProtocolPath := ⟨fun same => compare_eq_iff_eq.mp same⟩

/-- `ProtocolPath::parse`. -/
def parse (value : String) : Except PathError ProtocolPath :=
  match valid : validate value with
  | .ok () => .ok ⟨value, valid⟩
  | .error reason => .error reason

def components (path : ProtocolPath) : List String := splitSlash path.text

theorem parse_ok {value : String} {path : ProtocolPath} (parsed : parse value = .ok path) :
    path.text = value := by
  unfold parse at parsed
  split at parsed
  · rw [← Except.ok.inj parsed]
  · cases parsed

theorem parse_text (path : ProtocolPath) : parse path.text = .ok path := by
  unfold parse
  split
  · rfl
  · rename_i reason invalid
    rw [path.valid] at invalid
    cases invalid

theorem parse_of_valid {value : String} (valid : validate value = .ok ()) :
    parse value = .ok ⟨value, valid⟩ := parse_text ⟨value, valid⟩

theorem components_plain (path : ProtocolPath) :
    ∀ component ∈ path.components, Plain component := by
  obtain ⟨text, valid⟩ := path
  intro component listed
  unfold validate at valid
  split at valid
  · cases valid
  split at valid
  · cases valid
  split at valid
  · cases valid
  rename_i noNul
  obtain ⟨notEmpty, notDot, notDots⟩ := forM_validateComponent valid component listed
  obtain ⟨letters, piece, rfl⟩ := List.mem_map.mp listed
  obtain ⟨noSlash, inside⟩ := mem_splitOn piece
  rw [Plain, String.toList_ofList]
  exact ⟨noSlash, fun nul => noNul (inside _ nul), notEmpty, notDot, notDots⟩

@[simp] theorem joinSlash_components (path : ProtocolPath) :
    joinSlash path.components = path.text := joinSlash_splitSlash path.text

theorem components_ne_nil (path : ProtocolPath) : path.components ≠ [] :=
  splitSlash_ne_nil path.text

end ProtocolPath

/-- A path to evaluate the model on. -/
def ProtocolPath.sample : ProtocolPath := ⟨"f", by decide⟩

example : (ProtocolPath.parse "a/../b").toOption = none := by decide

end Skillsync

-- SUMMARY: A measurement is the scalar its pointer shows, as long as the search gets there within its hundred rows.
import Mathlib.Data.List.Nodup
import TwinServer.Devices.Schema

/-!
# Extraction

The search without its limit on rows lists a scalar for every path that it gets to, and the path determines
the scalar. What the limit leaves is the beginning of that list. So a measurement depends on three things: on
the scalar at its pointer, on whether the search shows it, and on how many scalars come before it.
-/

open Js Js.Json Realtime

namespace Devices

/-! ## The search without its limit on rows -/

/-- A scalar that is found, at its path from the root. -/
structure Leaf where
  path : List String
  value : Json
  unit : String
  label : Option String

def Leaf.row (leaf : Leaf) : Row := rowOf leaf.value leaf.path leaf.unit leaf.label

def leafOf (value : Json) (path : List String) (unit : String) (label : Option String) : List Leaf :=
  if isUnbounded value then [] else [{ path, value, unit, label }]

mutual

@[local grind] def leaves (value : Json) (path : List String) (depth : Nat) : List Leaf :=
  if depth > 8 then []
  else
    match value with
    | .object fields =>
      match wrapped fields with
      | some scalar =>
        leafOf scalar (path ++ ["value"]) ((asString? (Record.get? fields "unit")).getD "") path.getLast?
      | none => leavesOfEntries [] fields path depth
    | value => if isScalar value then leafOf value path "" none else []

@[local grind] def leavesOfEntries (seen : List String) (entries : List (String × Json)) (path : List String)
    (depth : Nat) : List Leaf :=
  match entries with
  | [] => []
  | (key, child) :: entries =>
    if seen.contains key then leavesOfEntries seen entries path depth
    else if forbidden.contains key then leavesOfEntries (key :: seen) entries path depth
    else leaves child (path ++ [key]) (depth + 1) ++ leavesOfEntries (key :: seen) entries path depth

end

/-- A list goes on until it has a hundred items. -/
def upToHundred {α : Type} (rows more : List α) : List α := rows ++ more.take (100 - rows.length)

theorem upToHundred_nil {α : Type} (rows : List α) : upToHundred rows [] = rows := by
  rw [upToHundred, List.take_nil, List.append_nil]

theorem upToHundred_full {α : Type} {rows : List α} (h : rows.length ≥ 100) (more : List α) :
    upToHundred rows more = rows := by
  rw [upToHundred, Nat.sub_eq_zero_of_le h, List.take_zero, List.append_nil]

theorem upToHundred_append {α : Type} (rows more others : List α) :
    upToHundred (upToHundred rows more) others = upToHundred rows (more ++ others) := by
  unfold upToHundred
  rw [List.take_append, List.append_assoc, List.length_append, List.length_take]
  congr 2
  congr 1
  omega

theorem add_eq (value : Json) (path : List String) (unit : String) (label : Option String) {rows : List Row}
    (h : ¬ rows.length ≥ 100) :
    add value path unit label rows = upToHundred rows ((leafOf value path unit label).map Leaf.row) := by
  unfold add leafOf
  split
  · rw [List.map_nil, upToHundred_nil]
  · have hroom : 100 - rows.length = (99 - rows.length) + 1 := by omega
    rw [upToHundred, hroom, List.map_cons, List.take_succ_cons, List.map_nil, List.take_nil]
    rfl

mutual

/-- The search goes on with the scalars of a value until there are a hundred rows. -/
theorem visit_eq (value : Json) (path : List String) (depth : Nat) (rows : List Row) :
    visit value path depth rows = upToHundred rows ((leaves value path depth).map Leaf.row) := by
  unfold visit leaves
  by_cases hdepth : depth > 8
  · rw [if_pos (.inl hdepth), if_pos hdepth, List.map_nil, upToHundred_nil]
  · by_cases hrows : rows.length ≥ 100
    · rw [if_pos (.inr hrows), upToHundred_full hrows]
    · rw [if_neg (not_or.mpr ⟨hdepth, hrows⟩), if_neg hdepth]
      cases value with
      | object fields =>
        dsimp only
        cases wrapped fields with
        | some scalar => exact add_eq _ _ _ _ hrows
        | none => exact visitEntries_eq [] fields path depth rows
      | _ =>
        dsimp only
        split
        · exact add_eq _ _ _ _ hrows
        · rw [List.map_nil, upToHundred_nil]

theorem visitEntries_eq (seen : List String) (entries : List (String × Json)) (path : List String)
    (depth : Nat) (rows : List Row) :
    visitEntries seen entries path depth rows =
      upToHundred rows ((leavesOfEntries seen entries path depth).map Leaf.row) := by
  match entries with
  | [] =>
    unfold visitEntries leavesOfEntries
    rw [List.map_nil, upToHundred_nil]
  | (key, child) :: entries =>
    unfold visitEntries leavesOfEntries
    split
    · exact visitEntries_eq seen entries path depth rows
    · split
      · exact visitEntries_eq (key :: seen) entries path depth rows
      · rw [visitEntries_eq, visit_eq, upToHundred_append, List.map_append]

end

theorem discoverSignals_eq (payload : Json) :
    discoverSignals payload = ((leaves payload [] 0).map Leaf.row).take 100 := by
  rw [discoverSignals, visit_eq]
  rfl

/-! ## What a path determines -/

/-- The scalar that the search finds at a path, without its limit on rows. -/
@[local grind] def leafAt : Json → Nat → List String → Option Json
  | v, depth, [] => if depth ≤ 8 ∧ isReading v then some v else none
  | .object fields, depth, key :: path =>
    if depth > 8 then none
    else
      match wrapped fields with
      | some scalar => if key = "value" ∧ path = [] ∧ isReading scalar then some scalar else none
      | none =>
        if forbidden.contains key then none
        else (Record.get? fields key).bind (leafAt · (depth + 1) path)
  | _, _, _ :: _ => none

theorem mem_leafOf {leaf : Leaf} {value : Json} {path : List String} {unit : String} {label : Option String} :
    leaf ∈ leafOf value path unit label ↔ isUnbounded value = false ∧ leaf = { path, value, unit, label } := by
  unfold leafOf
  cases isUnbounded value <;> simp

theorem isScalar_of_wrapped {fields : Record Json} {scalar : Json} (h : wrapped fields = some scalar) :
    Record.get? fields "value" = some scalar ∧ isScalar scalar := Option.filter_eq_some_iff.mp h

mutual

theorem leafAt_of_mem {value : Json} {path : List String} {depth : Nat} {leaf : Leaf}
    (h : leaf ∈ leaves value path depth) :
    ∃ p, leaf.path = path ++ p ∧ leafAt value depth p = some leaf.value := by
  unfold leaves at h
  by_cases hdepth : depth > 8
  · rw [if_pos hdepth] at h
    cases h
  · rw [if_neg hdepth] at h
    cases value with
    | object fields =>
      dsimp only at h
      cases hwrapped : wrapped fields with
      | some scalar =>
        rw [hwrapped] at h
        obtain ⟨hfinite, rfl⟩ := mem_leafOf.mp h
        have hreading : isReading scalar := by simp [isReading, (isScalar_of_wrapped hwrapped).2, hfinite]
        exact ⟨["value"], rfl, by simp [leafAt, hdepth, hwrapped, hreading]⟩
      | none =>
        rw [hwrapped] at h
        obtain ⟨key, p, child, hpath, hkey, hget, hleaf⟩ := leafAt_of_mem_entries h
        refine ⟨key :: p, hpath, ?_⟩
        have hget : Record.get? fields key = some child := by simpa using hget
        simp [leafAt, hdepth, hwrapped, hkey, hget, hleaf]
    | _ =>
      dsimp only at h
      split at h
      case isTrue hscalar =>
        obtain ⟨hfinite, rfl⟩ := mem_leafOf.mp h
        refine ⟨[], (List.append_nil _).symm, ?_⟩
        simp [leafAt, Nat.not_lt.mp hdepth, isReading, hscalar, hfinite]
      case isFalse => cases h

theorem leafAt_of_mem_entries {seen : List String} {entries : List (String × Json)} {path : List String}
    {depth : Nat} {leaf : Leaf} (h : leaf ∈ leavesOfEntries seen entries path depth) :
    ∃ key p child, leaf.path = path ++ key :: p ∧ key ∉ forbidden ∧
      (if key ∈ seen then none else Record.get? entries key) = some child ∧
      leafAt child (depth + 1) p = some leaf.value := by
  match entries with
  | [] =>
    unfold leavesOfEntries at h
    cases h
  | (key₀, child₀) :: entries =>
    unfold leavesOfEntries at h
    -- an entry that is found later is not hidden by the first one
    have hlater {seen' : List String} (hseen : seen' = key₀ :: seen ∨ key₀ ∈ seen ∧ seen' = seen)
        (h : leaf ∈ leavesOfEntries seen' entries path depth) :
        ∃ key p child, leaf.path = path ++ key :: p ∧ key ∉ forbidden ∧
          (if key ∈ seen then none else Record.get? ((key₀, child₀) :: entries) key) = some child ∧
          leafAt child (depth + 1) p = some leaf.value := by
      obtain ⟨key, p, child, hpath, hkey, hget, hleaf⟩ := leafAt_of_mem_entries h
      refine ⟨key, p, child, hpath, hkey, ?_, hleaf⟩
      rcases hseen with rfl | ⟨hmem, rfl⟩
      · rw [Record.get?_cons]
        by_cases hkey₀ : key = key₀
        · simp [hkey₀] at hget
        · simpa [hkey₀] using hget
      · rw [Record.get?_cons]
        by_cases hkey₀ : key = key₀
        · subst hkey₀
          simp [hmem] at hget
        · simpa [hkey₀] using hget
    split at h
    case isTrue hseen => exact hlater (.inr ⟨List.contains_iff_mem.mp hseen, rfl⟩) h
    case isFalse hseen =>
      split at h
      case isTrue hforbidden => exact hlater (.inl rfl) h
      case isFalse hforbidden =>
        rcases List.mem_append.mp h with h | h
        · obtain ⟨p, hpath, hleaf⟩ := leafAt_of_mem h
          refine ⟨key₀, p, child₀, by rw [hpath, List.append_assoc]; rfl, ?_, ?_, hleaf⟩
          · simpa using hforbidden
          · rw [if_neg (by simpa using hseen), Record.get?_cons, if_pos rfl]
        · exact hlater (.inl rfl) h

end

theorem mem_leavesOfEntries {seen : List String} {entries : List (String × Json)} {path : List String}
    {depth : Nat} {key : String} {child : Json} {leaf : Leaf} (hkey : key ∉ forbidden) (hseen : key ∉ seen)
    (hget : Record.get? entries key = some child) (h : leaf ∈ leaves child (path ++ [key]) (depth + 1)) :
    leaf ∈ leavesOfEntries seen entries path depth := by
  induction entries generalizing seen with
  | nil => cases hget
  | cons e entries ih =>
    obtain ⟨key₀, child₀⟩ := e
    unfold leavesOfEntries
    rw [Record.get?_cons] at hget
    by_cases hkey₀ : key = key₀
    · subst hkey₀
      rw [if_pos rfl] at hget
      obtain rfl := Option.some.inj hget
      rw [if_neg (by simpa using hseen), if_neg (by simpa using hkey)]
      exact List.mem_append_left _ h
    · rw [if_neg hkey₀] at hget
      have hmore : key ∉ key₀ :: seen := by simp [hkey₀, hseen]
      split
      · exact ih hseen hget
      · split
        · exact ih hmore hget
        · exact List.mem_append_right _ (ih hmore hget)

theorem exists_mem_leaves {value : Json} (path : List String) {depth : Nat} {p : List String} {x : Json}
    (h : leafAt value depth p = some x) :
    ∃ leaf ∈ leaves value path depth, leaf.path = path ++ p ∧ leaf.value = x := by
  induction p generalizing value path depth with
  | nil =>
    unfold leafAt at h
    split at h
    case isFalse => cases h
    case isTrue hreading =>
      obtain rfl := Option.some.inj h
      obtain ⟨hdepth, hreading⟩ := hreading
      simp only [isReading, Bool.and_eq_true, Bool.not_eq_true'] at hreading
      unfold leaves
      rw [if_neg (Nat.not_lt.mpr hdepth)]
      cases value with
      | object fields => cases hreading.1
      | _ =>
        dsimp only
        rw [if_pos hreading.1]
        exact ⟨_, mem_leafOf.mpr ⟨hreading.2, rfl⟩, (List.append_nil _).symm, rfl⟩
  | cons key p ih =>
    cases value with
    | object fields =>
      simp only [leafAt] at h
      unfold leaves
      split at h
      case isTrue => cases h
      case isFalse hdepth =>
        rw [if_neg hdepth]
        dsimp only
        cases hwrapped : wrapped fields with
        | some scalar =>
          rw [hwrapped] at h
          dsimp only at h
          split at h
          case isFalse => cases h
          case isTrue hfound =>
            obtain ⟨rfl, rfl, hreading⟩ := hfound
            obtain rfl := Option.some.inj h
            simp only [isReading, Bool.and_eq_true, Bool.not_eq_true'] at hreading
            exact ⟨_, mem_leafOf.mpr ⟨hreading.2, rfl⟩, rfl, rfl⟩
        | none =>
          rw [hwrapped] at h
          dsimp only at h
          split at h
          case isTrue => cases h
          case isFalse hkey =>
            obtain ⟨child, hget, hchild⟩ := Option.bind_eq_some_iff.mp h
            obtain ⟨leaf, hleaf, hpath, hvalue⟩ := ih (path ++ [key]) hchild
            refine ⟨leaf, mem_leavesOfEntries (by simpa using hkey) List.not_mem_nil hget hleaf, ?_, hvalue⟩
            rw [hpath, List.append_assoc]
            rfl
    | _ => cases h

/-! ## Pointers -/

/-- The way to the scalar is open: it leads through objects only, and through none that wraps another
scalar, since of such an object only the wrapped scalar is shown. -/
def Shows : Json → List String → Prop
  | _, [] => True
  | .object fields, key :: path =>
    ((wrapped fields).isSome → key = "value" ∧ path = []) ∧
      ∀ child, Record.get? fields key = some child → Shows child path
  | _, _ :: _ => False

/-- What stands at a pointer. A payload that is a scalar itself stands at the slash. -/
def standsAt (payload : Json) (source : String) : Option Json :=
  if isScalar payload then (if source = "/" then some payload else none)
  else (Pointer.tokens source).bind (Pointer.resolve payload)

/-- The sources of all scalars of a payload, in the order of the search. -/
def sources (payload : Json) : List String := (leaves payload [] 0).map fun leaf => Pointer.encode leaf.path

/-- The search shows what stands at the pointer, among its first hundred scalars. -/
structure Visible (payload : Json) (source : String) : Prop where
  shows : isScalar payload ∨ ∀ path, Pointer.tokens source = some path → Shows payload path
  place : (sources payload).idxOf source < 100

/-- The paths the search gets to: at most eight tokens, or one more for a wrapped scalar. -/
structure Within (depth : Nat) (path : List String) : Prop where
  allowed : ∀ key ∈ path, key ∉ forbidden
  depth_le : path.length + depth ≤ 8 ∨ path.length + depth = 9 ∧ path.getLast? = some "value"

theorem within_of_leafAt {v : Json} {depth : Nat} {path : List String} {x : Json}
    (h : leafAt v depth path = some x) : Within depth path := by
  induction path generalizing v depth with
  | nil =>
    unfold leafAt at h
    split at h
    case isTrue hreading => exact ⟨nofun, .inl (by simpa using hreading.1)⟩
    case isFalse => cases h
  | cons key path ih =>
    cases v with
    | object fields =>
      simp only [leafAt] at h
      split at h
      case isTrue => cases h
      case isFalse hdepth =>
        cases hwrapped : wrapped fields with
        | some scalar =>
          rw [hwrapped] at h
          dsimp only at h
          split at h
          case isFalse => cases h
          case isTrue hfound =>
            obtain ⟨rfl, rfl, -⟩ := hfound
            refine ⟨by simp [forbidden], ?_⟩
            by_cases height : depth = 8
            · exact .inr ⟨by simp [height], rfl⟩
            · exact .inl (by simp; omega)
        | none =>
          rw [hwrapped] at h
          dsimp only at h
          split at h
          case isTrue => cases h
          case isFalse hkey =>
            obtain ⟨child, -, hchild⟩ := Option.bind_eq_some_iff.mp h
            obtain ⟨hallowed, hle⟩ := ih hchild
            refine ⟨fun k hk => ?_, ?_⟩
            · rcases List.mem_cons.mp hk with rfl | hk
              · simpa using hkey
              · exact hallowed k hk
            · rcases hle with hle | ⟨hle, hlast⟩
              · exact .inl (by rw [List.length_cons]; omega)
              · refine .inr ⟨by rw [List.length_cons]; omega, ?_⟩
                rw [List.getLast?_cons, hlast]
                rfl
    | _ => cases h

/-- Within its depth the search finds what stands at a path when it shows it. -/
theorem leafAt_eq_some {v : Json} {depth : Nat} {path : List String} (hpath : Within depth path) (x : Json) :
    leafAt v depth path = some x ↔ Shows v path ∧ Pointer.resolve v path = some x ∧ isReading x := by
  induction path generalizing v depth with
  | nil =>
    have hdepth : depth ≤ 8 := by
      rcases hpath.depth_le with h | ⟨-, h⟩
      · simpa using h
      · cases h
    simp only [leafAt, Shows, Pointer.resolve, hdepth, true_and, Option.some.injEq]
    cases hreading : isReading v with
    | true =>
      refine ⟨fun h => ?_, fun h => by simpa using h.1⟩
      obtain rfl := Option.some.inj h
      exact ⟨rfl, hreading⟩
    | false =>
      refine iff_of_false nofun fun h => ?_
      rw [← h.1, hreading] at h
      cases h.2
  | cons key path ih =>
    have hkey := hpath.allowed key List.mem_cons_self
    have hdepth : ¬ depth > 8 := by
      rcases hpath.depth_le with h | ⟨h, -⟩ <;> rw [List.length_cons] at h <;> omega
    cases v with
    | object fields =>
      simp only [leafAt, Shows, Pointer.resolve, if_neg hdepth]
      cases hwrapped : wrapped fields with
      | some scalar =>
        obtain ⟨hget, -⟩ := isScalar_of_wrapped hwrapped
        simp only [Option.isSome_some, true_implies]
        constructor
        · intro h
          split at h
          case isFalse => cases h
          case isTrue hfound =>
            obtain ⟨rfl, rfl, hreading⟩ := hfound
            obtain rfl := Option.some.inj h
            exact ⟨⟨⟨rfl, rfl⟩, fun _ _ => trivial⟩, by simp [hget, Pointer.resolve], hreading⟩
        · rintro ⟨⟨⟨rfl, rfl⟩, -⟩, hresolve, hreading⟩
          rw [hget, Option.bind_some] at hresolve
          obtain rfl := Option.some.inj hresolve
          exact if_pos ⟨rfl, rfl, hreading⟩
      | none =>
        simp only [Option.isSome_none, Bool.false_eq_true, false_implies, true_and]
        rw [if_neg (by simpa using hkey)]
        cases hget : Record.get? fields key with
        | none => simp
        | some child =>
          simp only [Option.bind_some, Option.some.injEq, forall_eq']
          by_cases hlast : path = [] ∧ depth = 8
          · -- a wrapped scalar would be found in its object
            obtain ⟨rfl, rfl⟩ := hlast
            have hvalue : key = "value" := by
              rcases hpath.depth_le with h | ⟨-, h⟩
              · simp at h
              · simpa using h
            subst hvalue
            refine iff_of_false (by simp [leafAt]) ?_
            rintro ⟨-, hresolve, hreading⟩
            obtain rfl := Option.some.inj hresolve
            simp only [isReading, Bool.and_eq_true] at hreading
            rw [wrapped, hget, Option.filter_eq_none_iff] at hwrapped
            exact hwrapped _ rfl hreading.1
          · refine ih ⟨fun k hk => hpath.allowed k (List.mem_cons_of_mem _ hk), ?_⟩
            rcases hpath.depth_le with h | ⟨h, hvalue⟩
            · exact .inl (by rw [List.length_cons] at h; omega)
            · rw [List.length_cons] at h
              cases path with
              | nil => exact absurd ⟨rfl, by rw [List.length_nil] at h; omega⟩ hlast
              | cons k path => exact .inr ⟨by omega, by simpa [List.getLast?_cons_cons] using hvalue⟩
    | _ =>
      refine iff_of_false nofun ?_
      rintro ⟨h, -⟩
      exact h

/-! ## The rows of a payload -/

@[simp] theorem Leaf.row_source (leaf : Leaf) : leaf.row.source = Pointer.encode leaf.path := rfl

theorem typeOf_of_mem_discoverSignals {payload : Json} {row : Row} (h : row ∈ discoverSignals payload) :
    ∃ leaf ∈ (leaves payload [] 0).take 100, leaf.row = row := by
  rw [discoverSignals_eq, ← List.map_take] at h
  exact List.mem_map.mp h

/-- A payload that is a scalar has one row at most, at the slash. -/
theorem leaves_of_isScalar {payload : Json} (h : isScalar payload) :
    leaves payload [] 0 = leafOf payload [] "" none := by
  unfold leaves
  rw [if_neg (by decide)]
  cases payload with
  | object fields => cases h
  | _ =>
    dsimp only
    rw [if_pos h]

theorem path_ne_nil {payload : Json} {leaf : Leaf} (hscalar : ¬ isScalar payload)
    (h : leafAt payload 0 leaf.path = some leaf.value) : leaf.path ≠ [] := by
  intro hnil
  rw [hnil, leafAt] at h
  split at h
  case isTrue hreading =>
    rw [isReading, Bool.and_eq_true] at hreading
    exact hscalar hreading.2.1
  case isFalse => cases h

theorem leafAt_of_mem_leaves {payload : Json} {leaf : Leaf} (h : leaf ∈ leaves payload [] 0) :
    leafAt payload 0 leaf.path = some leaf.value := by
  obtain ⟨p, hp, hleaf⟩ := leafAt_of_mem h
  rw [hp]
  exact hleaf

/-- The source of a scalar determines it. -/
theorem value_eq_of_source_eq {payload : Json} {leaf leaf' : Leaf} (h : leaf ∈ leaves payload [] 0)
    (h' : leaf' ∈ leaves payload [] 0) (hsource : Pointer.encode leaf.path = Pointer.encode leaf'.path) :
    leaf.value = leaf'.value := by
  by_cases hscalar : isScalar payload
  · rw [leaves_of_isScalar hscalar] at h h'
    obtain ⟨-, rfl⟩ := mem_leafOf.mp h
    obtain ⟨-, rfl⟩ := mem_leafOf.mp h'
    rfl
  · have hleaf := leafAt_of_mem_leaves h
    have hleaf' := leafAt_of_mem_leaves h'
    rw [Pointer.encode_injective (path_ne_nil hscalar hleaf) (path_ne_nil hscalar hleaf') hsource, hleaf'] at hleaf
    exact (Option.some.inj hleaf).symm

/-- The row of a source is the one of a scalar among the first hundred. -/
theorem rowAt_discoverSignals (payload : Json) (source : String) (x : Json) :
    (∃ row, rowAt (discoverSignals payload) source = some row ∧ row.value = x ∧ row.type = typeOf x) ↔
      ∃ leaf ∈ (leaves payload [] 0).take 100, Pointer.encode leaf.path = source ∧ leaf.value = x := by
  constructor
  · rintro ⟨row, hrow, hvalue, -⟩
    obtain ⟨leaf, hleaf, rfl⟩ := typeOf_of_mem_discoverSignals (List.mem_reverse.mp (List.mem_of_find?_eq_some hrow))
    exact ⟨leaf, hleaf, by simpa [Leaf.row_source] using List.find?_some hrow, hvalue⟩
  · rintro ⟨leaf, hleaf, hsource, rfl⟩
    have hmem : leaf.row ∈ (discoverSignals payload).reverse := by
      rw [List.mem_reverse, discoverSignals_eq, ← List.map_take]
      exact List.mem_map_of_mem hleaf
    cases hrow : rowAt (discoverSignals payload) source with
    | none => exact absurd hsource (by simpa using List.find?_eq_none.mp hrow _ hmem)
    | some row =>
      obtain ⟨leaf', hleaf', rfl⟩ :=
        typeOf_of_mem_discoverSignals (List.mem_reverse.mp (List.mem_of_find?_eq_some hrow))
      have hsource' : Pointer.encode leaf'.path = source := by simpa using List.find?_some hrow
      have hvalue := value_eq_of_source_eq (List.mem_of_mem_take hleaf') (List.mem_of_mem_take hleaf)
        (hsource'.trans hsource.symm)
      exact ⟨_, rfl, hvalue, congrArg typeOf hvalue⟩

/-- A source is among the first hundred when one of the first hundred scalars has it. -/
theorem mem_take_sources {payload : Json} {source : String} (h : source ∈ sources payload) :
    (sources payload).idxOf source < 100 ↔
      ∃ leaf ∈ (leaves payload [] 0).take 100, Pointer.encode leaf.path = source := by
  rw [← List.mem_take_iff_idxOf_lt h, sources, ← List.map_take, List.mem_map]

/-- What the search finds at a pointer is what stands there, where it is visible. -/
theorem found_iff {payload : Json} {path : List String} (hpath : Within 0 path) (hne : path ≠ []) (x : Json) :
    (∃ leaf ∈ (leaves payload [] 0).take 100, Pointer.encode leaf.path = Pointer.encode path ∧ leaf.value = x) ↔
      Visible payload (Pointer.encode path) ∧ standsAt payload (Pointer.encode path) = some x ∧ isReading x := by
  have htokens := Pointer.tokens_encode hne
  by_cases hscalar : isScalar payload
  · unfold standsAt
    rw [if_pos hscalar]
    constructor
    · rintro ⟨leaf, hleaf, hsource, rfl⟩
      have hmem := List.mem_of_mem_take hleaf
      have hplace : (sources payload).idxOf (Pointer.encode path) < 100 :=
        (mem_take_sources (hsource ▸ List.mem_map_of_mem hmem)).mpr ⟨leaf, hleaf, hsource⟩
      rw [leaves_of_isScalar hscalar] at hmem
      obtain ⟨hfinite, rfl⟩ := mem_leafOf.mp hmem
      refine ⟨⟨.inl hscalar, hplace⟩, if_pos hsource.symm, ?_⟩
      simp [isReading, hscalar, hfinite]
    · rintro ⟨-, hstands, hreading⟩
      split at hstands
      case isFalse => cases hstands
      case isTrue hsource =>
        obtain rfl := Option.some.inj hstands
        simp only [isReading, Bool.and_eq_true, Bool.not_eq_true'] at hreading
        refine ⟨{ path := [], value := payload, unit := "", label := none }, ?_, hsource.symm, rfl⟩
        rw [leaves_of_isScalar hscalar, leafOf, if_neg (by simp [hreading.2])]
        exact List.mem_singleton_self _
  · have hstands : standsAt payload (Pointer.encode path) = Pointer.resolve payload path := by
      rw [standsAt, if_neg hscalar, htokens, Option.bind_some]
    rw [hstands]
    constructor
    · rintro ⟨leaf, hleaf, hsource, rfl⟩
      have hmem := List.mem_of_mem_take hleaf
      have hfound := leafAt_of_mem_leaves hmem
      obtain rfl := Pointer.encode_injective (path_ne_nil hscalar hfound) hne hsource
      obtain ⟨hshows, hresolve, hreading⟩ := (leafAt_eq_some hpath _).mp hfound
      refine ⟨⟨.inr fun p hp => ?_, ?_⟩, hresolve, hreading⟩
      · obtain rfl := Option.some.inj (htokens.symm.trans hp)
        exact hshows
      · exact (mem_take_sources (List.mem_map_of_mem hmem)).mpr ⟨leaf, hleaf, rfl⟩
    · rintro ⟨⟨hshows, hplace⟩, hresolve, hreading⟩
      have hshows := hshows.resolve_left hscalar path htokens
      obtain ⟨leaf, hmem, hleaf, rfl⟩ := exists_mem_leaves []
        ((leafAt_eq_some hpath x).mpr ⟨hshows, hresolve, hreading⟩)
      have hsource : Pointer.encode leaf.path = Pointer.encode path := congrArg _ hleaf
      obtain ⟨leaf', hleaf', hsource'⟩ := (mem_take_sources (hsource ▸ List.mem_map_of_mem hmem)).mp hplace
      exact ⟨leaf', hleaf', hsource', value_eq_of_source_eq (List.mem_of_mem_take hleaf') hmem
        (hsource'.trans hsource.symm)⟩

/-! ## Accepted signals -/

section
variable [Runtime]

/-- A signal that is accepted takes its source and its type from a row, and its key is new. -/
theorem classifySignal_eq_ok {candidates : List Row} {keys : List (Option Json)} {raw : Json} {signal : Signal}
    (h : classifySignal candidates keys raw = .ok signal) :
    (∃ row ∈ candidates, signal.source = row.source ∧ signal.type = row.type) ∧
      (∃ key, keyString signal.key = some key) ∧ ∀ key ∈ keys, sameKey signal.key key = false := by
  unfold classifySignal at h
  split at h
  case h_1 => cases h
  case h_2 row hrow =>
    obtain ⟨source, -, hrow⟩ := Option.bind_eq_some_iff.mp hrow
    have hmem : row ∈ candidates := List.mem_reverse.mp (List.mem_of_find?_eq_some hrow)
    obtain ⟨key, hkey, h⟩ := Except.bind_eq_ok.mp h
    split at h
    case isTrue => cases h
    case isFalse hkeys =>
      simp only [Bool.or_eq_true, not_or, Bool.not_eq_true, List.any_eq_false] at hkeys
      split at h
      case h_1 name unit _ _ =>
        split at h
        case isTrue => cases h
        case isFalse =>
          obtain rfl := Except.ok.inj h
          exact ⟨⟨row, hmem, rfl, rfl⟩, ⟨key, conversion_eq_ok.mp hkey⟩, hkeys.2⟩
      case h_2 => cases h

theorem classifyEach_eq_ok {candidates : List Row} {keys : List (Option Json)} {items : List Json}
    {signals : List Signal} (h : classifyEach candidates keys items = .ok signals) :
    (∀ signal ∈ signals, (∃ row ∈ candidates, signal.source = row.source ∧ signal.type = row.type) ∧
      ∀ key ∈ keys, sameKey signal.key key = false) ∧
    signals.Pairwise fun a b => sameKey b.key a.key = false := by
  induction items generalizing keys signals with
  | nil =>
    obtain rfl := Except.ok.inj h
    exact ⟨nofun, .nil⟩
  | cons raw rest ih =>
    obtain ⟨signal, hsignal, h⟩ := Except.bind_eq_ok.mp h
    obtain ⟨others, hothers, h⟩ := Except.bind_eq_ok.mp h
    obtain rfl := Except.pure_eq_ok.mp h
    obtain ⟨hrow, -, hkeys⟩ := classifySignal_eq_ok hsignal
    obtain ⟨hall, hpairwise⟩ := ih hothers
    refine ⟨fun s hs => ?_, List.pairwise_cons.mpr ⟨fun s hs => ?_, hpairwise⟩⟩
    · rcases List.mem_cons.mp hs with rfl | hs
      · exact ⟨hrow, hkeys⟩
      · exact ⟨(hall s hs).1, fun key hkey => (hall s hs).2 key (List.mem_cons_of_mem _ hkey)⟩
    · exact (hall s hs).2 _ List.mem_cons_self

theorem classifySignals_eq_ok {input : Option Json} {sample : Json} {signals : List Signal}
    (h : classifySignals input sample = .ok signals) :
    (∀ signal ∈ signals, ∃ row ∈ discoverSignals sample, signal.source = row.source ∧ signal.type = row.type) ∧
      signals.Pairwise fun a b => sameKey b.key a.key = false := by
  unfold classifySignals at h
  split at h
  case h_1 items =>
    split at h
    case isTrue => cases h
    case isFalse =>
      obtain ⟨hall, hpairwise⟩ := classifyEach_eq_ok h
      exact ⟨fun signal hsignal => (hall signal hsignal).1, hpairwise⟩
  case h_2 => cases h

omit [Runtime] in
/-- The source of an accepted signal is the text of a path that the search gets to. -/
theorem exists_path_of_mem {sample : Json} {row : Row} (h : row ∈ discoverSignals sample) :
    ∃ path, path ≠ [] ∧ Within 0 path ∧ row.source = Pointer.encode path := by
  obtain ⟨leaf, hleaf, rfl⟩ := typeOf_of_mem_discoverSignals h
  have hwithin := within_of_leafAt (leafAt_of_mem_leaves (List.mem_of_mem_take hleaf))
  by_cases hnil : leaf.path = []
  · -- the slash is the text of the path of one empty token, too
    exact ⟨[""], by simp, ⟨by simp [forbidden], .inl (by decide)⟩, by rw [Leaf.row_source, hnil]; rfl⟩
  · exact ⟨leaf.path, hnil, hwithin, rfl⟩

/-! ## Measurements -/

omit [Runtime] in
theorem fromEntries_of_nodup {entries : Record Json} (h : (entries.map Prod.fst).Nodup) :
    fromEntries entries = entries :=
  (Record.foldl_set_of_nodup h fun _ _ => rfl).trans (List.nil_append _)

/-- The keys of the signals are strings, as their type says. -/
def StringKeys (signals : List Signal) : Prop := ∀ signal ∈ signals, ∃ key, signal.key = some (.string key)

/-- The entries that the signals have a reading for. -/
def entriesOf (rows : List Row) (signals : List Signal) : Record Json :=
  signals.filterMap fun signal => (measured rows signal).bind fun e => (keyString e.1).map (·, e.2)

theorem mapM_keyString {entries : List (Option Json × Json)} (h : ∀ e ∈ entries, (keyString e.1).isSome) :
    (entries.mapM fun e => do return (← conversion (keyString e.1), e.2) : Except Thrown (Record Json)) =
      .ok (entries.filterMap fun e => (keyString e.1).map (·, e.2)) := by
  rw [Except.mapM_eq_ok]
  induction entries with
  | nil => exact .nil
  | cons e entries ih =>
    obtain ⟨key, hkey⟩ := Option.isSome_iff_exists.mp (h e List.mem_cons_self)
    simp only [List.filterMap_cons, hkey, Option.map_some]
    refine .cons ?_ (ih fun e' he' => h e' (List.mem_cons_of_mem _ he'))
    rw [hkey]
    rfl

omit [Runtime] in
theorem nodup_keys {signals : List Signal} (hkeys : StringKeys signals)
    (hpairwise : signals.Pairwise fun a b => sameKey b.key a.key = false) : (signals.map Signal.key).Nodup := by
  rw [List.nodup_iff_pairwise_ne, List.pairwise_map]
  refine hpairwise.imp_of_mem fun {a b} ha hb hne heq => ?_
  obtain ⟨k, hk⟩ := hkeys a ha
  rw [← heq, hk] at hne
  simp [sameKey, strictEq] at hne

theorem mem_entriesOf {rows : List Row} {signals : List Signal} (hkeys : StringKeys signals) {key : String}
    {v : Json} :
    (key, v) ∈ entriesOf rows signals ↔ ∃ signal ∈ signals, signal.key = some (.string key) ∧
      ∃ row, rowAt rows signal.source = some row ∧ row.type = signal.type ∧ v = measurementOf signal row.value := by
  rw [entriesOf, List.mem_filterMap]
  refine exists_congr fun signal => and_congr_right fun hsignal => ?_
  obtain ⟨k, hk⟩ := hkeys signal hsignal
  have hstring : keyString (some (.string k)) = some k := rfl
  simp only [measured, Option.bind_map, Option.bind_eq_some_iff, Option.filter_eq_some_iff, Function.comp_apply,
    hk, hstring, Option.map_some, Option.some.injEq, Prod.mk.injEq, Json.string.injEq, beq_iff_eq]
  constructor
  · rintro ⟨row, ⟨hrow, htype⟩, rfl, rfl⟩
    exact ⟨rfl, row, hrow, htype, rfl⟩
  · rintro ⟨rfl, row, hrow, htype, rfl⟩
    exact ⟨row, ⟨hrow, htype⟩, rfl, rfl⟩

theorem nodup_entriesOf {rows : List Row} {signals : List Signal} (hkeys : StringKeys signals)
    (hpairwise : signals.Pairwise fun a b => sameKey b.key a.key = false) :
    ((entriesOf rows signals).map Prod.fst).Nodup := by
  have hnodup := nodup_keys hkeys hpairwise
  rw [List.nodup_iff_pairwise_ne, List.pairwise_map] at hnodup
  rw [entriesOf, List.nodup_iff_pairwise_ne, List.pairwise_map, List.pairwise_filterMap]
  refine hnodup.imp_of_mem fun {a b} ha hb hne e he f hf heq => hne ?_
  have hkey {signal : Signal} {e : String × Json} (hsignal : signal ∈ signals)
      (he : ((measured rows signal).bind fun e => (keyString e.1).map (·, e.2)) = some e) :
      signal.key = some (.string e.1) := by
    obtain ⟨k, hk⟩ := hkeys signal hsignal
    obtain ⟨e', he', he⟩ := Option.bind_eq_some_iff.mp he
    obtain ⟨row, -, rfl⟩ := Option.map_eq_some_iff.mp he'
    rw [hk] at he ⊢
    obtain rfl := Option.some.inj he
    rfl
  rw [hkey ha he, hkey hb hf, heq]

theorem keyString_measured (rows : List Row) {signals : List Signal} (hkeys : StringKeys signals) :
    ∀ e ∈ signals.filterMap (measured rows), (keyString e.1).isSome := by
  intro e he
  obtain ⟨signal, hsignal, he⟩ := List.mem_filterMap.mp he
  obtain ⟨row, -, rfl⟩ := Option.map_eq_some_iff.mp he
  obtain ⟨key, hkey⟩ := hkeys signal hsignal
  rw [hkey]
  rfl

theorem measurementsFrom_eq {rows : List Row} {signals : List Signal} (hkeys : StringKeys signals)
    (hpairwise : signals.Pairwise fun a b => sameKey b.key a.key = false) :
    measurementsFrom rows signals = .ok (entriesOf rows signals) := by
  have hmap := mapM_keyString (keyString_measured rows hkeys)
  rw [measurementsFrom, hmap, List.filterMap_filterMap]
  exact congrArg Except.ok (fromEntries_of_nodup (nodup_entriesOf hkeys hpairwise))

/-- The measurement of an accepted signal is the scalar that stands at its pointer and is visible. -/
theorem get?_entriesOf {payload : Json} {signals : List Signal} (hkeys : StringKeys signals)
    (hpairwise : signals.Pairwise fun a b => sameKey b.key a.key = false) {signal : Signal}
    (hsignal : signal ∈ signals) {path : List String} (hpath : Within 0 path) (hne : path ≠ [])
    (hsource : signal.source = Pointer.encode path) {key : String} (hkey : signal.key = some (.string key))
    (v : Json) :
    Record.get? (entriesOf (discoverSignals payload) signals) key = some v ↔
      ∃ x, Visible payload signal.source ∧ standsAt payload signal.source = some x ∧ isReading x ∧
        typeOf x = signal.type ∧ v = measurementOf signal x := by
  rw [Record.get?_eq_some_iff_mem (nodup_entriesOf hkeys hpairwise), mem_entriesOf hkeys]
  constructor
  · rintro ⟨other, hother, hkey', row, hrow, htype, rfl⟩
    obtain rfl := List.inj_on_of_nodup_map (nodup_keys hkeys hpairwise) hother hsignal (hkey'.trans hkey.symm)
    obtain ⟨leaf, -, rfl⟩ := typeOf_of_mem_discoverSignals (List.mem_reverse.mp (List.mem_of_find?_eq_some hrow))
    have hleaf := (rowAt_discoverSignals payload other.source leaf.value).mp ⟨_, hrow, rfl, rfl⟩
    obtain ⟨hvisible, hstands, hreading⟩ := (found_iff hpath hne _).mp (hsource ▸ hleaf)
    exact ⟨leaf.value, hsource ▸ hvisible, hsource ▸ hstands, hreading, htype, rfl⟩
  · rintro ⟨x, hvisible, hstands, hreading, htype, rfl⟩
    have hleaf := (found_iff hpath hne x).mpr ⟨hsource ▸ hvisible, hsource ▸ hstands, hreading⟩
    obtain ⟨row, hrow, rfl, htype'⟩ := (rowAt_discoverSignals payload signal.source x).mpr (hsource ▸ hleaf)
    exact ⟨signal, hsignal, hkey, row, hrow, htype'.trans htype, rfl⟩

/-! ## The measurements of a payload -/

variable (measures : Measures)

omit [Runtime] in
theorem get?_measurements (payload : Json) (position : Option TwinPosition) (measurements : Record Json) :
    Json.get? (.object (simulationContext measures payload ++ position.toList.flatMap positionRecord ++
      [("measurements", .object measurements)])) "measurements" = some (.object measurements) := by
  have hsimulation : Record.get? (simulationContext measures payload) "measurements" = none := by
    rw [Record.get?_eq_none]
    unfold simulationContext
    dsimp only
    split
    · split
      · cases ((asString? (payload.get? "simulationScenario")).filter scenarios.contains) <;> simp
      · simp
    · simp
  have hposition : Record.get? (position.toList.flatMap positionRecord) "measurements" = none := by
    rw [Record.get?_eq_none]
    cases position <;> simp [positionRecord]
  have hbefore : Record.get? (simulationContext measures payload ++ position.toList.flatMap positionRecord)
      "measurements" = none := by
    rw [Record.get?_append, hsimulation, hposition]
    rfl
  refine (Record.get?_append _ _ _).trans ?_
  rw [hbefore]
  rfl

/-- **Extraction.** Whether a payload is refused depends on its position alone. Otherwise a signal is measured
exactly when a scalar of its type stands at its pointer and the search shows it among the first hundred, and
then with that scalar. -/
theorem classifyPayload_measures {input : Option Json} {sample : Json} {signals : List Signal}
    (haccepted : classifySignals input sample = .ok signals) (hkeys : StringKeys signals) (payload : Json)
    (now : Number) :
    (∀ error, positionFromPayload measures payload now = .error error →
      classifyPayload measures payload now signals = .error error) ∧
    ∀ position, positionFromPayload measures payload now = .ok position →
      ∃ result measurements, classifyPayload measures payload now signals = .ok result ∧
        result.get? "measurements" = some (.object measurements) ∧
        ∀ signal ∈ signals, ∀ key, signal.key = some (.string key) → ∀ v,
          Record.get? measurements key = some v ↔
            ∃ x, Visible payload signal.source ∧ standsAt payload signal.source = some x ∧ isReading x ∧
              typeOf x = signal.type ∧ v = measurementOf signal x := by
  obtain ⟨hrows, hpairwise⟩ := classifySignals_eq_ok haccepted
  refine ⟨fun error herror => ?_, fun position hposition => ?_⟩
  · rw [classifyPayload, herror]
    rfl
  · refine ⟨_, entriesOf (discoverSignals payload) signals, ?_, get?_measurements measures payload position _, ?_⟩
    · rw [classifyPayload, hposition, measurementsFrom_eq hkeys hpairwise]
      rfl
    · intro signal hsignal key hkey v
      obtain ⟨row, hrow, hsource, -⟩ := hrows signal hsignal
      obtain ⟨path, hne, hpath, hpointer⟩ := exists_path_of_mem hrow
      exact get?_entriesOf hkeys hpairwise hsignal hpath hne (hsource.trans hpointer) hkey v

end

/-- A row that a client maps, as it sends it, and the sample it was found in. -/
def mappedRow : Json :=
  .object [("key", .string "temperature"), ("source", .string "/room/temperature"),
    ("name", .string "temperature"), ("unit", .string "C")]

def room (fields : Record Json) : Json := .object [("room", .object fields)]

def temperatureSignal : Signal where
  key := some (.string "temperature")
  source := "/room/temperature"
  name := "temperature"
  unit := "C"
  type := "string"

/-- Dates of which none is valid, and speeds as they are. -/
def noDates : Measures := ⟨fun _ => .nan, id, id, id⟩

theorem classifySignals_room : @classifySignals Runtime.ascii (some (.array [mappedRow]))
    (room [("temperature", .string "20")]) = .ok [temperatureSignal] := rfl

theorem stringKeys_temperature : StringKeys [temperatureSignal] := by
  intro signal hsignal
  obtain rfl := List.mem_singleton.mp hsignal
  exact ⟨_, rfl⟩

/-- The next sample of the room is measured. -/
theorem classifyPayload_measures_room :
    ∃ result measurements,
      @classifyPayload Runtime.ascii noDates (room [("temperature", .string "21")]) 0 [temperatureSignal] =
        .ok result ∧
      result.get? "measurements" = some (.object measurements) ∧
      Record.get? measurements "temperature" = some (measurementOf temperatureSignal (.string "21")) := by
  let _ := Runtime.ascii
  obtain ⟨result, measurements, hresult, hget, hmeasured⟩ :=
    (classifyPayload_measures noDates classifySignals_room stringKeys_temperature
      (room [("temperature", .string "21")]) 0).2 none rfl
  refine ⟨result, measurements, hresult, hget, ?_⟩
  rw [hmeasured temperatureSignal List.mem_cons_self "temperature" rfl]
  refine ⟨.string "21", ⟨.inr fun path hpath => ?_, by decide⟩, rfl, rfl, rfl, rfl⟩
  obtain rfl : ["room", "temperature"] = path := Option.some.inj hpath
  refine ⟨nofun, fun child hchild => ?_⟩
  obtain rfl := Option.some.inj hchild
  exact ⟨nofun, fun _ _ => trivial⟩

/-- A scalar for the room to wrap hides the temperature, which still stands at its pointer. -/
theorem wrapped_scalar_hides : ¬ ∀ signals result measurements,
    @classifySignals Runtime.ascii (some (.array [mappedRow])) (room [("temperature", .string "20")]) =
      .ok signals →
    @classifyPayload Runtime.ascii noDates (room [("temperature", .string "21"), ("value", .string "ok")]) 0
      signals = .ok result →
    result.get? "measurements" = some (.object measurements) →
    ∀ signal ∈ signals, ∀ key, signal.key = some (.string key) →
      ((Record.get? measurements key).isSome ↔ ∃ x, (Pointer.tokens signal.source).bind
        (Pointer.resolve (room [("temperature", .string "21"), ("value", .string "ok")])) = some x ∧
          isReading x ∧ typeOf x = signal.type) := by
  intro h
  have hiff := h [temperatureSignal] (.object [("measurements", .object [])]) [] classifySignals_room rfl rfl
    temperatureSignal List.mem_cons_self "temperature" rfl
  have hmeasured := hiff.mpr ⟨.string "21", rfl, rfl, rfl⟩
  cases hmeasured

end Devices

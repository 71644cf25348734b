import ChannelAdapter.Proofs.Context
/-!
Where the runtime context comes from. Without a variable there is none; a variable that names a file
stands for the context in that file or for the error that says what is wrong with it, never for none.
-/

namespace ChannelAdapter

namespace RuntimeContext

/-- What a file gives, by what is read of it. -/
inductive Loads (path : String) : Except FileError String → Except Error RuntimeContext → Prop
  | unreadable (e : FileError) : Loads path (.error e) (.error (.contextUnreadable path e.message))
  | read {raw : String} {result : Except Error RuntimeContext} (h : Outcome raw result) :
      Loads path (.ok raw) result

theorem Loads.ne_missing {path : String} {reading : Except FileError String}
    {result : Except Error RuntimeContext} (h : Loads path reading result) (name : String) :
    result ≠ .error (.missingContext name) := by
  cases h with
  | unreadable => nofun
  | read h => cases h <;> nofun

/-- A result for those who cannot do without a context. -/
def demand : Except Error (Option RuntimeContext) → Except Error RuntimeContext
  | .ok none => .error (.missingContext variableName)
  | .ok (some c) => .ok c
  | .error e => .error e

theorem demand_map_some (result : Except Error RuntimeContext) :
    demand (result.map some) = result := by
  cases result <;> rfl

def ofReading (path : String) : Except FileError String → Except Error RuntimeContext
  | .error e => .error (.contextUnreadable path e.message)
  | .ok raw => parse raw

theorem loads_ofReading (path : String) (reading : Except FileError String) :
    Loads path reading (ofReading path reading) := by
  cases reading with
  | error e => exact .unreadable e
  | ok raw => exact .read (outcome raw)

section
variable {m : Type → Type} [Monad m] [LawfulMonad m] [MonadFiles m]

theorem loadFile_eq (path : String) :
    (loadFile path : m _) = ofReading path <$> readText path := by
  rw [loadFile, map_eq_pure_bind]
  refine bind_congr fun reading => ?_
  cases reading <;> rfl

theorem filter_eq_none_iff {var : Option String} :
    var.filter (!·.isEmpty) = none ↔ var = none ∨ var = some "" := by
  cases var with
  | none => simp
  | some path => simp [Option.filter_some]

theorem filter_path {path : String} (h : path ≠ "") :
    (some path).filter (!·.isEmpty) = some path := by
  simp [Option.filter_some, h]

omit [LawfulMonad m] in
theorem load_of_unset {var : Option String} (h : var = none ∨ var = some "") :
    (load var : m _) = pure (.error (.missingContext variableName)) := by
  rw [load, filter_eq_none_iff.mpr h]

omit [LawfulMonad m] in
theorem load_of_path {path : String} (h : path ≠ "") :
    (load (some path) : m _) = loadFile path := by
  rw [load, filter_path h]

theorem load?_of_unset {var : Option String} (h : var = none ∨ var = some "") :
    (load? var : m _) = pure (.ok none) := by
  rw [load?, load_of_unset h, pure_bind]

theorem load?_of_path {path : String} (h : path ≠ "") :
    (load? (some path) : m _) = (·.map some) <$> loadFile path := by
  rw [load?, load_of_path h, loadFile_eq, map_eq_pure_bind, map_eq_pure_bind, bind_assoc,
    bind_assoc]
  refine bind_congr fun reading => ?_
  rw [pure_bind, pure_bind]
  have hpresent := (loads_ofReading path reading).ne_missing
  cases hresult : ofReading path reading with
  | ok c => rfl
  | error e =>
      cases e with
      | missingContext name => exact absurd hresult (hpresent name)
      | _ => rfl

theorem load_eq (var : Option String) : (load var : m _) = demand <$> load? var := by
  by_cases hvar : var = none ∨ var = some ""
  · rw [load_of_unset hvar, load?_of_unset hvar, map_pure, demand]
  · obtain ⟨path, rfl⟩ := Option.ne_none_iff_exists'.mp (not_or.mp hvar).1
    have hpath : path ≠ "" := fun h => hvar (.inr (h ▸ rfl))
    rw [load_of_path hpath, load?_of_path hpath, Functor.map_map]
    simp only [demand_map_some, id_map']

theorem loadFor_eq (required : Bool) (var : Option String) :
    (loadFor required var : m _) =
      (fun result => if required then (demand result).map some else result) <$> load? var := by
  cases required with
  | false => simp [loadFor]
  | true => simp only [loadFor, if_pos, load_eq, map_eq_pure_bind, bind_assoc, pure_bind]

end

/-- A context is absent only where the variable is unset or empty. One that is there and cannot be used
is an error for every loader, and the same one. -/
theorem loaders_agree {ω : Type} [MonadFiles (StateM ω)] (var : Option String) (w : ω) :
    (((load? var : StateM ω _).run w).1 = .ok none ↔ var = none ∨ var = some "") ∧
    (∀ path, var = some path → path ≠ "" →
      (load? var : StateM ω _).run w =
          (((loadFile path : StateM ω _).run w).1.map some, ((loadFile path : StateM ω _).run w).2) ∧
        Loads path ((readText path : StateM ω _).run w).1 ((loadFile path : StateM ω _).run w).1) ∧
    (load var : StateM ω _).run w =
      (match (load? var : StateM ω _).run w with
      | (.ok none, w') => (.error (.missingContext variableName), w')
      | (.ok (some c), w') => (.ok c, w')
      | (.error e, w') => (.error e, w')) ∧
    ∀ required, (loadFor required var : StateM ω _).run w =
      (match (load? var : StateM ω _).run w with
      | (.ok none, w') =>
          (if required then .error (.missingContext variableName) else .ok none, w')
      | loaded => loaded) := by
  have hpath (path : String) (h : path ≠ "") : (load? (some path) : StateM ω _).run w =
      (((loadFile path : StateM ω _).run w).1.map some, ((loadFile path : StateM ω _).run w).2) := by
    rw [load?_of_path h]
    rfl
  refine ⟨⟨fun hnone => ?_, fun hvar => ?_⟩, ?_, ?_, fun required => ?_⟩
  · by_contra hvar
    obtain ⟨path, rfl⟩ := Option.ne_none_iff_exists'.mp (not_or.mp hvar).1
    rw [hpath path fun h => hvar (.inr (h ▸ rfl))] at hnone
    cases hresult : ((loadFile path : StateM ω _).run w).1 <;> simp [hresult, Except.map] at hnone
  · rw [load?_of_unset hvar]
    rfl
  · rintro path rfl h
    refine ⟨hpath path h, ?_⟩
    rw [loadFile_eq]
    exact loads_ofReading path _
  · rw [load_eq]
    change (demand ((load? var : StateM ω _).run w).1, ((load? var : StateM ω _).run w).2) = _
    rcases (load? var : StateM ω _).run w with ⟨_ | _ | _, w'⟩ <;> rfl
  · rw [loadFor_eq]
    change ((if required then (demand ((load? var : StateM ω _).run w).1).map some
      else ((load? var : StateM ω _).run w).1), ((load? var : StateM ω _).run w).2) = _
    rcases (load? var : StateM ω _).run w with ⟨_ | _ | _, w'⟩ <;> cases required <;> rfl

def nameless : RuntimeContext := ⟨none, "", "work", [], none⟩

theorem denotes_nameless : Denotes (record.codec.write nameless) nameless :=
  have hsound : nameless.Sound := ⟨nofun, .object .nil (List.forall_mem_nil _)⟩
  have hwhole : nameless.Whole := .object (List.forall_mem_nil _)
  denotes_iff.mp (faithful.read_write hsound hwhole (by decide +kernel))

/-- A world of files that can be read and no more. -/
structure Shelf where
  files : List (String × String)

instance : MonadFiles (StateM Shelf) where
  read path := return match (← get).files.lookup path with
    | some text => .ok text.toUTF8
    | none => .error .notFound
  modified _ := return 0
  pathExists path := return ((← get).files.lookup path).isSome
  append _ _ := return .error .notFound

def shelf : Shelf := ⟨[("context.json", record.codec.write nameless)]⟩

theorem loaders_agree_shelf :
    ((load? (some "context.json") : StateM Shelf _).run shelf).1 =
        .error (.contextIncomplete "channel") ∧
      ((load? (some "other.json") : StateM Shelf _).run shelf).1 =
        .error (.contextUnreadable "other.json" "No such file or directory (os error 2)") ∧
      ((load? (some "") : StateM Shelf _).run shelf).1 = .ok none ∧
      ((loadFor true (some "") : StateM Shelf _).run shelf).1 =
        .error (.missingContext "NEXUS_ADAPTER_CONTEXT_PATH") := by
  have hnameless : ((readText "context.json" : StateM Shelf _).run shelf).1 =
      .ok (record.codec.write nameless) := by
    decide +kernel
  have hother : ((readText "other.json" : StateM Shelf _).run shelf).1 = .error .notFound := by
    decide +kernel
  have hincomplete : ((loadFile "context.json" : StateM Shelf _).run shelf).1 =
      .error (.contextIncomplete "channel") := by
    rw [loadFile_eq]
    change ofReading "context.json" ((readText "context.json" : StateM Shelf _).run shelf).1 = _
    rw [hnameless]
    exact parse_of_lacks denotes_nameless (.channel rfl)
  obtain ⟨-, hcontext, -⟩ := loaders_agree (some "context.json") shelf
  obtain ⟨-, hmissing, -⟩ := loaders_agree (some "other.json") shelf
  obtain ⟨hunset, -, -, hrequired⟩ := loaders_agree (some "") shelf
  refine ⟨?_, ?_, hunset.mpr (.inr rfl), ?_⟩
  · rw [(hcontext _ rfl (by decide)).1, hincomplete]
    rfl
  · obtain ⟨hload, hloads⟩ := hmissing _ rfl (by decide)
    rw [hload]
    rw [hother] at hloads
    generalize ((loadFile "other.json" : StateM Shelf _).run shelf).1 = result at hloads ⊢
    cases hloads
    rfl
  · rw [hrequired]
    rfl

end RuntimeContext

end ChannelAdapter

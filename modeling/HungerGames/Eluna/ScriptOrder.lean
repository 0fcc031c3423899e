/-
# The order in which scripts are run

The scripts are the files of a folder and its subfolders whose names end as scripts do.  Those that
are extensions are run first; each of the two groups is sorted by path.  A script is not run when
its module, the path without the extension of the file, is loaded already.

Whether the name of a file ends with `_ext` is asked by a search for the last of these four
characters, which in such a name is the `t`.  `ordered_iff` says for which folders, and which course
of the scripts, the order is right.
-/
import Mathlib.Data.List.Sort
import HungerGames.Lua.Text

namespace HungerGames.ElunaScripts

open HungerGames.Lua (Bytes bytes)

/-! ## 1. Finding scripts -/

structure LuaScript where
  fileext : Bytes
  filename : Bytes
  filepath : Bytes
  modulepath : Bytes

/-- `std::string::find_last_of`: the last place of one of the characters. -/
def findLastOf (chars s : Bytes) : Option ℕ :=
  (s.reverse.findIdx? fun c => c ∈ chars).map fun i => s.length - 1 - i

/-- A file name is split at its last dot. -/
def splitName (filename : Bytes) : Option (Bytes × Bytes) :=
  (findLastOf (bytes ".") filename).map fun extDot =>
    (filename.take extDot, filename.drop extDot)

def luascript (ext : Bytes) : Bool := ext = bytes ".lua" ∨ ext = bytes ".dll"

def extension (filename ext : Bytes) : Bool :=
  ext = bytes ".ext" ∨
    filename.length ≥ 4 ∧ findLastOf (bytes "_ext") filename = some (filename.length - 4)

/-- `lua_extensions` and `lua_scripts`. -/
structure Scripts where
  extensions : List LuaScript
  scripts : List LuaScript

/-- `Eluna::AddScriptPath` -/
def addScriptPath (lists : Scripts) (file : Bytes × Bytes) : Scripts :=
  match splitName file.1 with
  | none => lists
  | some (filename, ext) =>
    if luascript ext = false ∧ extension filename ext = false then lists
    else
      let script := ⟨ext, filename, file.2, file.2.take (file.2.length - ext.length)⟩
      if extension filename ext then { lists with extensions := lists.extensions ++ [script] }
      else { lists with scripts := lists.scripts ++ [script] }

/-- What is in a folder. -/
inductive Entry where
  | file (name : Bytes)
  | folder (name : Bytes) (entries : List Entry)

mutual

/-- The files that `GetScripts` comes to, with their paths, in this order. -/
def Entry.files (path : Bytes) : Entry → List (Bytes × Bytes)
  | .file name => [(name, path ++ bytes "/" ++ name)]
  | .folder name entries => filesIn (path ++ bytes "/" ++ name) entries

def filesIn (path : Bytes) : List Entry → List (Bytes × Bytes)
  | [] => []
  | entry :: entries => entry.files path ++ filesIn path entries

end

/-- `Eluna::GetScripts` -/
def getScripts (path : Bytes) (entries : List Entry) : Scripts :=
  (filesIn path entries).foldl addScriptPath ⟨[], []⟩

/-! ## 2. Running scripts -/

/-- `compare(..) < 0`, byte by byte. -/
def pathLess : Bytes → Bytes → Bool
  | _, [] => false
  | [], _ :: _ => true
  | a :: as, b :: bs => a.toNat < b.toNat ∨ a.toNat = b.toNat ∧ pathLess as bs

/-- `ScriptpathComparator` does not put the second before the first. -/
def NotAfter (first second : LuaScript) : Prop := pathLess second.filepath first.filepath = false

instance : DecidableRel NotAfter := fun _ _ => inferInstanceAs (Decidable (_ = _))

/-- What the Lua state does: whether a module is loaded, what running a script does to the state and
whether it succeeds, and a module that is noted as loaded. -/
structure LuaModules (σ : Type) where
  isLoaded : σ → Bytes → Bool
  run : LuaScript → σ → Bool × σ
  setLoaded : σ → Bytes → σ

variable {σ : Type} (lua : LuaModules σ)

/-- The state after a script was run. -/
def LuaModules.after (s : σ) (script : LuaScript) : σ :=
  let (succeeded, s) := lua.run script s
  if succeeded then lua.setLoaded s script.modulepath else s

/-- The loop of `RunScripts`: the scripts that are run. -/
def runLoop : List LuaScript → σ → List LuaScript
  | [], _ => []
  | script :: scripts, s =>
    if lua.isLoaded s script.modulepath then runLoop scripts s
    else script :: runLoop scripts (lua.after s script)

/-- The scripts in the order of `RunScripts`. -/
def Scripts.sorted (lists : Scripts) : List LuaScript :=
  lists.extensions.insertionSort NotAfter ++ lists.scripts.insertionSort NotAfter

/-- `Eluna::RunScripts` -/
def runScripts (path : Bytes) (entries : List Entry) (s : σ) : List LuaScript :=
  runLoop lua (getScripts path entries).sorted s

/-! ## 3. What is asked for -/

/-- The extension is `.ext` or the name ends with `_ext`. -/
def IsExtension (filename ext : Bytes) : Prop := ext = bytes ".ext" ∨ bytes "_ext" <:+ filename

/-- A file name and its extension, which is empty where there is no dot. -/
def parts (name : Bytes) : Bytes × Bytes := (splitName name).getD (name, [])

/-- Whether a file of this name is put to the extensions. -/
def classified (name : Bytes) : Bool := (splitName name).any fun file => extension file.1 file.2

/-- Whether a file of this name is put to one of the lists. -/
def accepted (name : Bytes) : Bool :=
  (splitName name).any fun file => luascript file.2 || extension file.1 file.2

/-- The paths of the accepted files. -/
def acceptedPaths (path : Bytes) (entries : List Entry) : List Bytes :=
  ((filesIn path entries).filter fun file => accepted file.1).map Prod.snd

/-- **Each accepted file is run once, extensions first, each group in the order of the paths; an
extension is what the name says.** -/
structure Ordered (path : Bytes) (entries : List Entry) (s : σ) : Prop where
  once : ((runScripts lua path entries s).map LuaScript.filepath).Perm (acceptedPaths path entries)
  groups : ∃ extensions others, runScripts lua path entries s = extensions ++ others ∧
    (∀ script ∈ extensions, IsExtension script.filename script.fileext) ∧
    (∀ script ∈ others, ¬ IsExtension script.filename script.fileext) ∧
    extensions.Pairwise NotAfter ∧ others.Pairwise NotAfter
  kinds : ∀ file ∈ filesIn path entries,
    classified file.1 = true ↔ IsExtension (parts file.1).1 (parts file.1).2

/-- One of the four characters that are searched for is the fourth from the end, and none of them
comes after it. -/
def Mistaken (filename : Bytes) : Prop :=
  ∃ front c x y z, filename = front ++ [c, x, y, z] ∧ c ∈ bytes "_ext" ∧
    x ∉ bytes "_ext" ∧ y ∉ bytes "_ext" ∧ z ∉ bytes "_ext"

/-- The search tells the truth about this name. -/
def Clear (name : Bytes) : Prop :=
  (parts name).2 = bytes ".ext" ∨
    ¬ bytes "_ext" <:+ (parts name).1 ∧ (splitName name ≠ none → ¬ Mistaken (parts name).1)

/-- No module is loaded when the turn of its script comes. -/
def NoneLoaded : List LuaScript → σ → Prop
  | [], _ => True
  | script :: scripts, s =>
    lua.isLoaded s script.modulepath = false ∧ NoneLoaded scripts (lua.after s script)

/-! ## 4. Names -/

/-- **The search finds the last of the four characters.** -/
theorem findLastOf_ext {filename : Bytes} :
    filename.length ≥ 4 ∧ findLastOf (bytes "_ext") filename = some (filename.length - 4) ↔
      Mistaken filename := by
  obtain ⟨back, rfl⟩ : ∃ back : Bytes, filename = back.reverse := ⟨filename.reverse, by simp⟩
  constructor
  · rintro ⟨hlen, hfind⟩
    match back, hlen with
    | z :: y :: x :: c :: front, _ =>
      simp only [findLastOf, List.reverse_reverse, Option.map_eq_some_iff] at hfind
      obtain ⟨i, hi, hat⟩ := hfind
      obtain ⟨hlt, hin, hout⟩ := List.findIdx?_eq_some_iff_getElem.mp hi
      obtain rfl : i = 3 := by
        simp only [List.length_reverse, List.length_cons] at hat hlt
        omega
      refine ⟨front.reverse, c, x, y, z, by simp, by simpa using hin, ?_, ?_, ?_⟩
      · simpa using hout 2 (by omega)
      · simpa using hout 1 (by omega)
      · simpa using hout 0 (by omega)
  · rintro ⟨front, c, x, y, z, hname, hc, hx, hy, hz⟩
    simp [hname, findLastOf, List.findIdx?_cons, hc, hx, hy, hz]

/-- A name that ends with `_ext` ends with one of the characters. -/
theorem not_mistaken {filename : Bytes} (h : bytes "_ext" <:+ filename) : ¬ Mistaken filename := by
  obtain ⟨first, hname⟩ := h
  rintro ⟨front, c, x, y, z, hname', -, -, -, hz⟩
  have hlast : bytes "_ext" = [c, x, y, z] := (List.append_inj' (hname.trans hname') rfl).2
  exact hz (hlast ▸ by simp)

theorem extension_iff {filename ext : Bytes} :
    extension filename ext = true ↔ ext = bytes ".ext" ∨ Mistaken filename := by
  rw [← findLastOf_ext]
  simp [extension]

/-- **A name is understood when the search tells the truth about it.** -/
theorem classified_iff (name : Bytes) :
    (classified name = true ↔ IsExtension (parts name).1 (parts name).2) ↔ Clear name := by
  have hdot : ([] : Bytes) ≠ bytes ".ext" := by decide
  rcases h : splitName name with _ | ⟨filename, ext⟩
  · simp [classified, IsExtension, Clear, parts, h, hdot]
  · simp only [classified, IsExtension, Clear, parts, h, Option.any_some, extension_iff,
      Option.getD_some]
    have := @not_mistaken filename
    tauto

/-! ## 5. Lists -/

/-- The scripts of the lists stand for these files, each in the list of its kind. -/
def Listed (files : List (Bytes × Bytes)) (lists : Scripts) : Prop :=
  (∀ script ∈ lists.extensions, ∃ file ∈ files,
    splitName file.1 = some (script.filename, script.fileext) ∧ classified file.1 = true) ∧
  ∀ script ∈ lists.scripts, ∃ file ∈ files,
    splitName file.1 = some (script.filename, script.fileext) ∧ classified file.1 = false

/-- **A file is put to the list of its kind, when it is accepted.** -/
theorem addScriptPath_cases (lists : Scripts) (file : Bytes × Bytes) :
    addScriptPath lists file = lists ∧ accepted file.1 = false ∨
      accepted file.1 = true ∧ ∃ script : LuaScript, script.filepath = file.2 ∧
        splitName file.1 = some (script.filename, script.fileext) ∧
        (classified file.1 = true ∧
            addScriptPath lists file = ⟨lists.extensions ++ [script], lists.scripts⟩ ∨
          classified file.1 = false ∧
            addScriptPath lists file = ⟨lists.extensions, lists.scripts ++ [script]⟩) := by
  rcases h : splitName file.1 with _ | ⟨filename, ext⟩
  · simp [addScriptPath, accepted, h]
  · simp only [addScriptPath, accepted, classified, h, Option.any_some]
    rcases hext : extension filename ext with _ | _
    · rcases hlua : luascript ext with _ | _
      · simp
      · exact .inr ⟨rfl, ⟨ext, filename, file.2, file.2.take (file.2.length - ext.length)⟩, rfl,
          rfl, .inr ⟨rfl, by simp⟩⟩
    · exact .inr ⟨by simp, ⟨ext, filename, file.2, file.2.take (file.2.length - ext.length)⟩, rfl,
      rfl, .inl ⟨rfl, by simp⟩⟩

theorem Listed.addScriptPath {files : List (Bytes × Bytes)} {lists : Scripts}
    (h : Listed files lists) {file : Bytes × Bytes} (hfile : file ∈ files) :
    Listed files (addScriptPath lists file) := by
  obtain ⟨heq, -⟩ | ⟨-, script, -, hsplit, ⟨hkind, heq⟩ | ⟨hkind, heq⟩⟩ :=
    addScriptPath_cases lists file
  · rwa [heq]
  · rw [heq]
    refine ⟨List.forall_mem_append.mpr ⟨h.1, ?_⟩, h.2⟩
    exact List.forall_mem_singleton.mpr ⟨file, hfile, hsplit, hkind⟩
  · rw [heq]
    refine ⟨h.1, List.forall_mem_append.mpr ⟨h.2, ?_⟩⟩
    exact List.forall_mem_singleton.mpr ⟨file, hfile, hsplit, hkind⟩

/-- **Every script of the lists is a file of its kind.** -/
theorem listed_getScripts (path : Bytes) (entries : List Entry) :
    Listed (filesIn path entries) (getScripts path entries) :=
  List.foldlRecOn _ _ (by simp [Listed]) fun _ h _ hfile => h.addScriptPath hfile

/-- The paths in both lists. -/
def Scripts.paths (lists : Scripts) : List Bytes :=
  (lists.extensions ++ lists.scripts).map LuaScript.filepath

theorem paths_foldl (files : List (Bytes × Bytes)) (lists : Scripts) :
    (files.foldl addScriptPath lists).paths.Perm
      (lists.paths ++ (files.filter fun file => accepted file.1).map Prod.snd) := by
  induction files generalizing lists with
  | nil => simp
  | cons file files ih =>
    refine (ih (addScriptPath lists file)).trans ?_
    obtain ⟨heq, hno⟩ | ⟨hyes, script, hpath, -, ⟨-, heq⟩ | ⟨-, heq⟩⟩ :=
      addScriptPath_cases lists file
    · simp [heq, hno]
    · simp only [heq, Scripts.paths, List.map_append, List.append_assoc, List.map_cons,
        List.map_nil, hpath, List.filter_cons, hyes, if_true]
      exact .append_left _ (by simpa using List.perm_middle.symm)
    · simp [heq, hyes, hpath, Scripts.paths]

/-- **The lists hold the accepted files, each once.** -/
theorem sorted_perm (path : Bytes) (entries : List Entry) :
    ((getScripts path entries).sorted.map LuaScript.filepath).Perm (acceptedPaths path entries) :=
  (((List.perm_insertionSort _ _).append (List.perm_insertionSort _ _)).map _).trans
    (paths_foldl (filesIn path entries) ⟨[], []⟩)

/-! ## 6. The order of paths -/

theorem pathLess_asymm : ∀ a b : Bytes, pathLess a b = true → pathLess b a = false
  | _, [], h => by simp [pathLess] at h
  | [], _ :: _, _ => rfl
  | a :: as, b :: bs, h => by
    have ih := pathLess_asymm as bs
    simp only [pathLess, decide_eq_true_eq, decide_eq_false_iff_not] at h ⊢
    rintro (hlt | ⟨heq, hless⟩)
    · omega
    · obtain hlt | ⟨-, hrest⟩ := h
      · omega
      · simp [ih hrest] at hless

theorem not_pathLess_trans : ∀ a b c : Bytes, pathLess b a = false → pathLess c b = false →
    pathLess c a = false
  | [], _, c, _, _ => by cases c <;> rfl
  | _ :: _, [], _, hab, _ => by simp [pathLess] at hab
  | _ :: _, _ :: _, [], _, hbc => by simp [pathLess] at hbc
  | a :: as, b :: bs, c :: cs, hab, hbc => by
    have ih := not_pathLess_trans as bs cs
    simp only [pathLess, decide_eq_false_iff_not, not_or, not_and, Bool.not_eq_true] at hab hbc ⊢
    refine ⟨by omega, fun heq => ?_⟩
    exact ih (hab.2 (by omega)) (hbc.2 (by omega))

instance : Std.Total NotAfter where
  total a b := by
    rcases h : pathLess b.filepath a.filepath with _ | _
    · exact .inl h
    · exact .inr (pathLess_asymm _ _ h)

instance : IsTrans LuaScript NotAfter where
  trans _ _ _ hab hbc := not_pathLess_trans _ _ _ hab hbc

/-! ## 7. The run -/

theorem runLoop_sublist (scripts : List LuaScript) (s : σ) :
    (runLoop lua scripts s).Sublist scripts := by
  induction scripts generalizing s with
  | nil => exact .slnil
  | cons script scripts ih =>
    rw [runLoop]
    split
    · exact .cons _ (ih s)
    · exact .cons_cons _ (ih _)

/-- **Every script is run when no module is loaded.** -/
theorem runLoop_eq_iff (scripts : List LuaScript) (s : σ) :
    runLoop lua scripts s = scripts ↔ NoneLoaded lua scripts s := by
  induction scripts generalizing s with
  | nil => simp [runLoop, NoneLoaded]
  | cons script scripts ih =>
    rw [runLoop, NoneLoaded, ← ih]
    rcases h : lua.isLoaded s script.modulepath with _ | _
    · simp
    · have hlen := (runLoop_sublist lua scripts s).length_le
      simp only [if_true, Bool.true_eq_false, false_and, iff_false]
      intro heq
      rw [heq, List.length_cons] at hlen
      omega

/-- **Scripts are run in the right order when the search tells the truth about every name, and no
module is loaded when the turn of its script comes.** -/
theorem ordered_iff (path : Bytes) (entries : List Entry) (s : σ) :
    Ordered lua path entries s ↔
      (∀ file ∈ filesIn path entries, Clear file.1) ∧
        NoneLoaded lua (getScripts path entries).sorted s := by
  constructor
  · intro h
    refine ⟨fun file hfile => (classified_iff file.1).mp (h.kinds file hfile), ?_⟩
    rw [← runLoop_eq_iff]
    apply (runLoop_sublist lua _ s).eq_of_length
    simpa [runScripts] using (h.once.trans (sorted_perm path entries).symm).length_eq
  · rintro ⟨hclear, hloaded⟩
    have hkinds := fun file hfile => (classified_iff file.1).mpr (hclear file hfile)
    have hrun : runScripts lua path entries s = (getScripts path entries).sorted :=
      (runLoop_eq_iff lua _ s).mpr hloaded
    have hlisted := listed_getScripts path entries
    refine ⟨hrun ▸ sorted_perm path entries, ⟨_, _, hrun, ?_, ?_,
      List.pairwise_insertionSort _ _, List.pairwise_insertionSort _ _⟩, hkinds⟩
    · intro script hscript
      have hmem := (List.mem_insertionSort _).mp hscript
      obtain ⟨file, hfile, hsplit, hkind⟩ := hlisted.1 script hmem
      simpa [parts, hsplit] using (hkinds file hfile).mp hkind
    · intro script hscript
      have hmem := (List.mem_insertionSort _).mp hscript
      obtain ⟨file, hfile, hsplit, hkind⟩ := hlisted.2 script hmem
      simpa [parts, hsplit, hkind] using hkinds file hfile

/-- **The only file is `a_ext.lua`, and it is not taken for an extension.** -/
theorem single_extension_not_ordered :
    ¬ Ordered (⟨fun _ _ => false, fun _ s => (true, s), fun s _ => s⟩ : LuaModules Unit)
      (bytes "lua_scripts") [.file (bytes "a_ext.lua")] () := by
  intro h
  have hkind := h.kinds (bytes "a_ext.lua", bytes "lua_scripts/a_ext.lua") (by decide +kernel)
  have hname : bytes "_ext" <:+ (parts (bytes "a_ext.lua")).1 := by decide +kernel
  exact absurd (hkind.mpr (.inr hname)) (by decide +kernel)

end HungerGames.ElunaScripts

import ToolWrappers.Proofs.Extraction

/-! What an action looks at. An action that is local to some places comes to the same in any two trees that
agree there, and leaves them in agreement. -/

namespace ToolWrappers

open ToolWrappers.Action ToolWrappers.FileTree ToolWrappers.Path

namespace FileTree

variable {t u : FileTree} {path : String} {place : Place} {P : Place → Prop}

/-- Two trees have the same at all of these places. -/
def AgreeOn (P : Place → Prop) (t u : FileTree) : Prop := ∀ place, P place → t.get? place = u.get? place

theorem AgreeOn.isDirectoryAt (agree : AgreeOn P t u) (inside : P place) :
    t.isDirectoryAt place = u.isDirectoryAt place := by
  rw [FileTree.isDirectoryAt, FileTree.isDirectoryAt, agree place inside]

theorem AgreeOn.put (agree : AgreeOn P t u) (place : Place) (node : Node) :
    AgreeOn P (t.put place node) (u.put place node) := by
  intro other inside
  rw [get?_put, get?_put, agree other inside]

theorem AgreeOn.bytesAt (agree : AgreeOn P t u) (inside : P place) :
    t.bytesAt place = u.bytesAt place := by
  rw [FileTree.bytesAt, FileTree.bytesAt, agree place inside]

section

variable [User]

theorem AgreeOn.find (agree : AgreeOn P t u) (within : ∀ place, LeadsThrough path place → P place) :
    t.find path = u.find path := by
  unfold FileTree.find
  cases pathFault? path with
  | some fault => rfl
  | none => exact walk_congr fun lead first => agree _ (within _ ⟨lead, first, rfl⟩)

theorem AgreeOn.node? (agree : AgreeOn P t u) (within : ∀ place, LeadsThrough path place → P place) :
    t.node? path = u.node? path := by
  unfold FileTree.node?
  rw [agree.find within]
  cases found : u.find path with
  | error fault => rfl
  | ok place => exact agree place (within place (placeOf_of_find found ▸ leadsThrough_placeOf path))

theorem AgreeOn.read? (agree : AgreeOn P t u) (within : ∀ place, LeadsThrough path place → P place) :
    t.read? path = u.read? path := by
  rw [FileTree.read?, FileTree.read?, agree.node? within]

theorem AgreeOn.isDirectory (agree : AgreeOn P t u)
    (within : ∀ place, LeadsThrough path place → P place) : t.isDirectory path = u.isDirectory path := by
  rw [FileTree.isDirectory, FileTree.isDirectory, agree.node? within]

theorem AgreeOn.spot {reversed : List String} (agree : AgreeOn P t u)
    (within : ∀ place, LeadsThrough path place → P place) (first : reversed.reverse <+: names path) :
    t.spot path reversed = u.spot path reversed := by
  unfold FileTree.spot
  cases pathFault? path with
  | some fault => rfl
  | none =>
      cases reversed with
      | nil => rfl
      | cons name above =>
          rw [List.reverse_cons] at first
          have inside {lead : List String} (leads : lead <+: above.reverse) :
              P (resolve (outset path) lead) :=
            within _ ⟨lead, leads.trans ((List.prefix_append _ [name]).trans first), rfl⟩
          have walked : t.walk (outset path) above.reverse = u.walk (outset path) above.reverse :=
            walk_congr fun lead leads => agree _ (inside leads)
          dsimp only
          rw [walked]
          cases reached : u.walk (outset path) above.reverse with
          | error fault => rfl
          | ok parent =>
              have same := agree.isDirectoryAt (inside (List.prefix_refl _))
              rw [resolve_of_walk reached] at same
              simp only [bind, Except.bind, same]

theorem AgreeOn.fileSpot (agree : AgreeOn P t u) (within : ∀ place, LeadsThrough path place → P place) :
    t.fileSpot path = u.fileSpot path := by
  unfold FileTree.fileSpot
  rw [agree.spot within (by simp)]
  cases spotted : u.spot path (names path).reverse with
  | error fault => rfl
  | ok place =>
      have vacant : u.Vacancy path [] place := .of_spot (by simp) (by simp) spotted
      have same := agree.isDirectoryAt (within place (vacant.placeOf ▸ leadsThrough_placeOf path))
      simp only [bind, Except.bind, same]

theorem AgreeOn.writeSpot (agree : AgreeOn P t u) (within : ∀ place, LeadsThrough path place → P place) :
    t.writeSpot path = u.writeSpot path := by
  unfold FileTree.writeSpot
  rw [agree.fileSpot within]
  cases spotted : u.fileSpot path with
  | error fault => rfl
  | ok place =>
      have lies := (vacancy_of_fileSpot spotted).1.placeOf
      simp only [bind, Except.bind, agree place (within place (lies ▸ leadsThrough_placeOf path))]

theorem AgreeOn.directorySpot (agree : AgreeOn P t u)
    (within : ∀ place, LeadsThrough path place → P place) :
    t.directorySpot path = u.directorySpot path := by
  obtain ⟨slashes, split, empty⟩ := exists_eq_append_slashes (names path)
  unfold FileTree.directorySpot
  rw [agree.spot within ⟨slashes, split.symm⟩]
  cases spotted : u.spot path ((names path).reverse.dropWhile (· = "")) with
  | error fault => rfl
  | ok place =>
      have vacant : u.Vacancy path slashes place := .of_spot split empty spotted
      have same := agree place (within place (vacant.placeOf ▸ leadsThrough_placeOf path))
      simp only [bind, Except.bind, same]

end

end FileTree

/-! ### Local actions -/

namespace Action

variable {ε ε' α β : Type} {act : Action ε α} {P : Place → Prop} {path : String}

/-- In two trees that agree on these places, an action has the same outcome, and they agree on them
afterwards. -/
def Local (P : Place → Prop) (act : Action ε α) : Prop :=
  ∀ t u, AgreeOn P t u → (act.run t).1 = (act.run u).1 ∧ AgreeOn P (act.run t).2 (act.run u).2

/-- An action that succeeds in one tree succeeds in a tree that agrees with it. -/
theorem Local.exists_run {t t' u : FileTree} {a : α} (h : Local P act) (agree : AgreeOn P t u)
    (run : act.run t = (.ok a, t')) : ∃ u', act.run u = (.ok a, u') ∧ AgreeOn P t' u' := by
  obtain ⟨same, after⟩ := h t u agree
  rw [run] at same after
  exact ⟨_, run_eq_ok same.symm, after⟩

theorem Local.pure (a : α) : Local P (Pure.pure a : Action ε α) := fun _ _ agree => ⟨rfl, agree⟩

theorem Local.throw (e : ε) : Local P (MonadExcept.throw e : Action ε α) := fun _ _ agree => ⟨rfl, agree⟩

theorem Local.throw_bind (e : ε) (f : α → Action ε β) : Local P (MonadExcept.throw e >>= f) :=
  fun _ _ agree => ⟨rfl, agree⟩

theorem Local.bind {f : α → Action ε β} (first : Local P act) (next : ∀ a, Local P (f a)) :
    Local P (act >>= f) := by
  intro t u agree
  obtain ⟨same, after⟩ := first t u agree
  rw [run_bind, run_bind]
  rcases run : act.run t with ⟨e | a, t'⟩ <;> rcases run' : act.run u with ⟨e' | a', u'⟩ <;>
    rw [run, run'] at same after <;> cases same
  · exact ⟨rfl, after⟩
  · exact next a t' u' after

theorem Local.tryCatch {handle : ε → Action ε α} (first : Local P act)
    (next : ∀ e, Local P (handle e)) : Local P (tryCatch act handle : Action ε α) := by
  intro t u agree
  obtain ⟨same, after⟩ := first t u agree
  rw [run_tryCatch, run_tryCatch]
  rcases run : act.run t with ⟨e | a, t'⟩ <;> rcases run' : act.run u with ⟨e' | a', u'⟩ <;>
    rw [run, run'] at same after <;> cases same
  · exact next e t' u' after
  · exact ⟨rfl, after⟩

theorem Local.orFail (h : Local P act) (failure : ε') : Local P (act.orFail failure) := by
  intro t u agree
  obtain ⟨same, after⟩ := h t u agree
  rw [run_orFail, run_orFail]
  rcases run : act.run t with ⟨e | a, t'⟩ <;> rcases run' : act.run u with ⟨e' | a', u'⟩ <;>
    rw [run, run'] at same after <;> cases same <;> exact ⟨rfl, after⟩

/-- What depends on a tree only by what it has at these places. -/
theorem Local.get_bind {f : FileTree → Action ε β} (same : ∀ t u, AgreeOn P t u → f t = f u)
    (next : ∀ t, Local P (f t)) : Local P (MonadState.get >>= f) := by
  intro t u agree
  rw [run_bind_of_ok (run_get t), run_bind_of_ok (run_get u), same t u agree]
  exact next u t u agree

section

variable [User]

theorem Local.makeDir (within : ∀ place, LeadsThrough path place → P place) :
    Local P (makeDir path) := by
  intro t u agree
  rw [run_makeDir, run_makeDir, agree.directorySpot within]
  cases u.directorySpot path with
  | error fault => exact ⟨rfl, agree⟩
  | ok place => exact ⟨rfl, agree.put place .directory⟩

theorem Local.settleDir (within : ∀ place, LeadsThrough path place → P place) :
    Local P (settleDir path) := by
  refine .tryCatch (.makeDir within) fun fault => .get_bind ?_ ?_
  · intro t u agree
    rw [agree.isDirectory within]
  · intro t
    split
    · exact .pure ()
    · exact .throw fault

theorem Local.makeLineage {dirs : List String}
    (within : ∀ dir ∈ dirs, ∀ place, LeadsThrough dir place → P place) : Local P (makeLineage dirs) := by
  induction dirs with
  | nil => exact .throw Fault.missing
  | cons path above ih =>
      have here := within path List.mem_cons_self
      rw [Action.makeLineage]
      split
      · exact .pure ()
      · refine .tryCatch (.makeDir here) fun fault => ?_
        cases fault with
        | missing =>
            exact .bind (ih fun dir member => within dir (List.mem_cons_of_mem path member))
              fun _ => .settleDir here
        | blocked =>
            refine .get_bind ?_ ?_
            · intro t u agree
              rw [agree.isDirectory here]
            · intro t
              split
              · exact .pure ()
              · exact .throw Fault.blocked

theorem Local.makeDirs (within : ∀ place, LeadsThrough path place → P place) :
    Local P (makeDirs path) :=
  .makeLineage fun _ member place through => within place (.of_mem_lineage member through)

theorem Local.writeFile {bytes : ByteArray} (within : ∀ place, LeadsThrough path place → P place) :
    Local P (writeFile path bytes) := by
  intro t u agree
  rw [run_writeFile, run_writeFile, agree.writeSpot within]
  cases spotted : u.writeSpot path with
  | error fault => exact ⟨rfl, agree⟩
  | ok place =>
      have lies := (vacancy_of_fileSpot (writeSpot_eq_ok spotted).1).1.placeOf
      dsimp only
      rw [agree place (within place (lies ▸ leadsThrough_placeOf path))]
      exact ⟨rfl, agree.put place _⟩

theorem Local.setMode {mode : Nat} (within : ∀ place, LeadsThrough path place → P place) :
    Local P (setMode path mode) := by
  intro t u agree
  rw [Action.setMode, run_step, run_step, agree.find within]
  cases found : u.find path with
  | error fault => exact ⟨rfl, agree⟩
  | ok place =>
      have lies := within place (placeOf_of_find found ▸ leadsThrough_placeOf path)
      simp only [Bind.bind, Except.bind, agree place lies]
      rcases u.get? place with _ | _ | ⟨old, bytes⟩
      · exact ⟨rfl, agree⟩
      · exact ⟨rfl, agree⟩
      · exact ⟨rfl, agree.put place _⟩

end

end Action

/-! ### Unpacking -/

namespace Bundle

variable {P : Place → Prop} {target path : String} {a : Archive}

theorem local_now (archived : P a.place) : Local P a.now := by
  refine .get_bind ?_ fun t => .pure _
  intro t u agree
  rw [agree.bytesAt archived]

section

variable [User]

theorem local_makeParents (within : ∀ place, LeadsThrough path place → P place) :
    Local P (makeParents path) := by
  unfold makeParents
  split
  · exact .pure ()
  · rename_i parent above
    exact (Local.makeDirs fun place through => within place (through.of_parent? above)).orFail _

theorem local_openArchive (lib : Zip.Library) (within : ∀ place, LeadsThrough path place → P place) :
    Local P (openArchive lib path) := by
  refine .get_bind ?_ fun t => ?_
  · intro t u agree
    rw [agree.find within]
    cases found : u.find path with
    | error fault => rfl
    | ok place =>
        dsimp only
        rw [agree place (within place (placeOf_of_find found ▸ leadsThrough_placeOf path))]
  · split
    · exact .throw _
    · split
      · split
        · split
          · exact .throw _
          · exact .pure _
        · exact .throw _
      · exact .throw _

theorem local_extractRecord {r : Zip.Record} (archived : P a.place)
    (within : isUnsafe r.name = false → ∀ place, LeadsThrough (join target r.name) place → P place)
    (read : ByteArray → Zip.Data) : Local P (extractRecord a target r read) := by
  unfold extractRecord
  dsimp only
  split
  · exact .throw_bind _ _
  · rename_i allowed
    have inside := within (by simpa using allowed)
    split
    · exact (Local.makeDirs inside).orFail _
    · refine .bind (local_makeParents inside) fun _ => .bind ((Local.writeFile inside).orFail _) fun _ =>
        .bind (local_now archived) fun bytes => .bind ((Local.writeFile inside).orFail _)
          fun _ => ?_
      split
      · exact .throw_bind _ _
      · split
        · exact .pure ()
        · exact (Local.setMode inside).orFail _

/-- Extracting entries looks at nothing but the archive and where the entries go. -/
theorem local_extractAll {records : List Zip.Record} (lib : Zip.Library) (index : Nat)
    (archived : P a.place)
    (within : ∀ r ∈ records, isUnsafe r.name = false →
      ∀ place, LeadsThrough (join target r.name) place → P place) :
    Local P (extractAll lib a target index records) := by
  induction records generalizing index with
  | nil => exact .pure ()
  | cons r rest ih =>
      refine .bind (local_now archived) fun bytes => ?_
      split
      · exact .throw_bind _ _
      · exact .bind (local_extractRecord archived (within r List.mem_cons_self) _) fun _ =>
          ih (index + 1) fun other member => within other (List.mem_cons_of_mem r member)

end

end Bundle

end ToolWrappers

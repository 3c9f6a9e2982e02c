import ToolWrappers.Proofs.Walks

/-! What the steps of an action do to a tree. An action relates the tree before it to the tree after it,
whether or not it fails; what is reflexive and transitive passes from the steps to the whole. -/

namespace ToolWrappers

namespace Action

variable {ε ε' α β : Type} {R : FileTree → FileTree → Prop} {act : Action ε α}

theorem run_eq_ok {a : α} {t : FileTree} (h : (act.run t).1 = .ok a) :
    act.run t = (.ok a, (act.run t).2) := by
  rw [← h]

theorem run_orFail (act : Action ε α) (failure : ε') (t : FileTree) :
    (act.orFail failure).run t =
      match act.run t with
      | (.ok a, u) => (.ok a, u)
      | (.error _, u) => (.error failure, u) := by
  change ((act.run t).1.mapError fun _ => failure, (act.run t).2) = _
  rcases act.run t with ⟨_ | _, _⟩ <;> rfl

/-- What an action that succeeds went through. -/
theorem run_bind_eq_ok {f : α → Action ε β} {t v : FileTree} {b : β}
    (h : (act >>= f).run t = (.ok b, v)) :
    ∃ a u, act.run t = (.ok a, u) ∧ (f a).run u = (.ok b, v) := by
  rw [run_bind] at h
  rcases first : act.run t with ⟨_ | a, u⟩
  · rw [first] at h
    cases h
  · rw [first] at h
    exact ⟨a, u, rfl, h⟩

theorem run_bind_eq_error {f : α → Action ε β} {t v : FileTree} {e : ε}
    (h : (act >>= f).run t = (.error e, v)) :
    act.run t = (.error e, v) ∨ ∃ a u, act.run t = (.ok a, u) ∧ (f a).run u = (.error e, v) := by
  rw [run_bind] at h
  rcases first : act.run t with ⟨_ | a, u⟩
  · rw [first] at h
    cases h
    exact .inl rfl
  · rw [first] at h
    exact .inr ⟨a, u, rfl, h⟩

theorem run_orFail_eq_ok {failure : ε'} {t u : FileTree} {a : α} :
    (act.orFail failure).run t = (.ok a, u) ↔ act.run t = (.ok a, u) := by
  rw [run_orFail]
  rcases act.run t with ⟨_ | _, _⟩ <;> simp

theorem run_tryCatch (act : Action ε α) (handle : ε → Action ε α) (t : FileTree) :
    (tryCatch act handle : Action ε α).run t =
      match act.run t with
      | (.ok a, u) => (.ok a, u)
      | (.error e, u) => (handle e).run u := by
  change ((ExceptT.run act >>= fun result => match result with
    | .ok a => pure (.ok a)
    | .error e => handle e : StateM FileTree (Except ε α)).run t) = _
  rw [StateT.run_bind]
  change (match (act.run t).1 with
    | .ok a => pure (.ok a)
    | .error e => handle e : StateM FileTree (Except ε α)).run (act.run t).2 = _
  rcases act.run t with ⟨_ | _, _⟩ <;> rfl

theorem run_step (f : FileTree → Except ε FileTree) (t : FileTree) :
    (step f).run t =
      match f t with
      | .ok u => (.ok (), u)
      | .error e => (.error e, t) := by
  rw [step, run_bind_of_ok (run_get t)]
  cases f t <;> rfl

theorem run_step_eq_ok {f : FileTree → Except ε FileTree} {t u : FileTree} {a : Unit}
    (h : (step f).run t = (.ok a, u)) : f t = .ok u := by
  rw [run_step] at h
  cases changed : f t with
  | ok v =>
      rw [changed] at h
      rw [(Prod.mk.inj h).2]
  | error e =>
      rw [changed] at h
      cases h

theorem run_inOrder_append (first second : List (Action ε Unit)) (t : FileTree) :
    (inOrder (first ++ second)).run t =
      match (inOrder first).run t with
      | (.ok (), u) => (inOrder second).run u
      | (.error e, u) => (.error e, u) := by
  induction first generalizing t with
  | nil => rfl
  | cons act rest ih =>
      rw [List.cons_append, inOrder, inOrder, run_bind, run_bind]
      rcases act.run t with ⟨_ | _, u⟩
      · rfl
      · exact ih u

/-- Whatever an action does to a tree, whether or not it fails, is a change of this kind. -/
def Keeps (R : FileTree → FileTree → Prop) (act : Action ε α) : Prop := ∀ t, R t (act.run t).2

theorem Keeps.orFail (h : Keeps R act) (failure : ε') : Keeps R (act.orFail failure) := by
  intro t
  have done := h t
  rw [run_orFail]
  rcases run : act.run t with ⟨e | a, u⟩ <;> rwa [run] at done

section

variable [IsPreorder FileTree R]

theorem Keeps.pure (a : α) : Keeps R (Pure.pure a : Action ε α) := fun t => refl_of R t

theorem Keeps.throw (e : ε) : Keeps R (MonadExcept.throw e : Action ε α) := fun t => refl_of R t

theorem Keeps.throw_bind (e : ε) (f : α → Action ε β) :
    Keeps R (MonadExcept.throw e >>= f) := fun t => refl_of R t

theorem Keeps.get : Keeps R (MonadState.get : Action ε FileTree) := fun t => refl_of R t

/-- One action after another, for one tree: the second starts from what the first has come to. -/
theorem related_bind {t : FileTree} {f : α → Action ε β} (first : R t (act.run t).2)
    (next : ∀ a u, act.run t = (.ok a, u) → R u ((f a).run u).2) : R t ((act >>= f).run t).2 := by
  rw [run_bind]
  rcases run : act.run t with ⟨e | a, u⟩
  · rwa [run] at first
  · rw [run] at first
    exact trans_of R first (next a u run)

theorem Keeps.bind {f : α → Action ε β} (first : Keeps R act) (next : ∀ a, Keeps R (f a)) :
    Keeps R (act >>= f) :=
  fun t => related_bind (first t) fun a u _ => next a u

theorem Keeps.tryCatch {handle : ε → Action ε α} (h : Keeps R act)
    (handled : ∀ e, Keeps R (handle e)) : Keeps R (tryCatch act handle : Action ε α) := by
  intro t
  have tried := h t
  rw [run_tryCatch]
  rcases run : act.run t with ⟨e | a, u⟩
  · rw [run] at tried
    exact trans_of R tried (handled e u)
  · rwa [run] at tried

theorem Keeps.inOrder {acts : List (Action ε Unit)} (h : ∀ act ∈ acts, Keeps R act) :
    Keeps R (inOrder acts) := by
  induction acts with
  | nil => exact Keeps.pure ()
  | cons act rest ih =>
      exact Keeps.bind (h act List.mem_cons_self) fun _ =>
        ih fun other member => h other (List.mem_cons_of_mem act member)

theorem Keeps.step {f : FileTree → Except ε FileTree} (h : ∀ t u, f t = .ok u → R t u) :
    Keeps R (step f) := by
  intro t
  rw [run_step]
  cases changed : f t with
  | error e => exact refl_of R t
  | ok u => exact h t u changed

end

end Action

namespace Action

variable {ε ε' α β : Type} {P : ε → Prop} {act : Action ε α}

/-- Every failure of an action is one of these. -/
def FailsWith (P : ε → Prop) (act : Action ε α) : Prop := ∀ t e u, act.run t = (.error e, u) → P e

theorem FailsWith.pure (a : α) : FailsWith P (Pure.pure a : Action ε α) := by
  intro t e u failed
  cases failed

theorem FailsWith.throw {e : ε} (h : P e) : FailsWith P (MonadExcept.throw e : Action ε α) := by
  intro t e' u failed
  obtain rfl := Except.error.inj (Prod.mk.inj failed).1
  exact h

theorem FailsWith.get : FailsWith P (MonadState.get : Action ε FileTree) := by
  intro t e u failed
  cases failed

theorem FailsWith.orFail (act : Action ε' α) {failure : ε} (h : P failure) :
    FailsWith P (act.orFail failure) := by
  intro t e u failed
  rw [run_orFail] at failed
  split at failed
  · cases failed
  · obtain rfl := Except.error.inj (Prod.mk.inj failed).1
    exact h

theorem FailsWith.bind {f : α → Action ε β} (first : FailsWith P act) (next : ∀ a, FailsWith P (f a)) :
    FailsWith P (act >>= f) := by
  intro t e u failed
  rw [run_bind] at failed
  rcases run : act.run t with ⟨e' | a, v⟩
  · rw [run] at failed
    exact Except.error.inj (Prod.mk.inj failed).1 ▸ first t e' v run
  · rw [run] at failed
    exact next a v e u failed

theorem FailsWith.inOrder {acts : List (Action ε Unit)} (h : ∀ act ∈ acts, FailsWith P act) :
    FailsWith P (inOrder acts) := by
  induction acts with
  | nil => exact .pure ()
  | cons act rest ih =>
      exact .bind (h act List.mem_cons_self) fun _ =>
        ih fun other member => h other (List.mem_cons_of_mem act member)

end Action

/-! ### The steps of the file system -/

theorem FileTree.put_put (t : FileTree) (place : Place) (first second : Node) :
    (t.put place first).put place second = t.put place second := by
  simp [put, List.filter_filter]

theorem mayWrite_newFileMode [User] : mayWrite Action.newFileMode = true := by
  rw [mayWrite, show Action.newFileMode.testBit 7 = true by decide, Bool.or_true]

/-- A kind of change that covers putting a node where a path has room for it. -/
def Puts [User] (R : FileTree → FileTree → Prop) (path : String) (node : Node) : Prop :=
  ∀ t idle place, t.Vacancy path idle place →
    (if node = .directory then t.get? place = none else t.isDirectoryAt place = false) →
      R t (t.put place node)

namespace Action

variable [User] {R : FileTree → FileTree → Prop} {t u : FileTree} {path source target : String}

theorem run_readFile (path : String) (t : FileTree) : (readFile path).run t =
    match t.node? path with
    | some (.file mode bytes) => if mayRead mode = true then (.ok bytes, t) else (.error .blocked, t)
    | some .directory => (.error .blocked, t)
    | none => (.error .missing, t) := by
  rw [readFile, run_bind_of_ok (run_get t)]
  rcases t.node? path with _ | _ | ⟨mode, bytes⟩
  · rfl
  · rfl
  · dsimp only
    split <;> rfl

/-- What has been read lies at the path, and the tree is as it was. -/
theorem run_readFile_eq_ok {bytes : ByteArray} (h : (readFile path).run t = (.ok bytes, u)) :
    u = t ∧ ∃ place mode, t.find path = .ok place ∧ t.get? place = some (.file mode bytes) ∧
      mayRead mode = true := by
  rw [run_readFile] at h
  split at h
  · rename_i mode held there
    split at h
    · rename_i readable
      obtain ⟨same, rfl⟩ := Prod.mk.inj h
      obtain rfl := Except.ok.inj same
      obtain ⟨place, found, file⟩ := FileTree.node?_eq_some there
      exact ⟨rfl, place, mode, found, file, readable⟩
    · cases h
  · cases h
  · cases h

theorem run_makeDir (path : String) (t : FileTree) : (makeDir path).run t =
    match t.directorySpot path with
    | .ok place => (.ok (), t.put place .directory)
    | .error fault => (.error fault, t) := by
  rw [makeDir, run_step]
  cases t.directorySpot path <;> rfl

theorem run_writeFile (path : String) (bytes : ByteArray) (t : FileTree) :
    (writeFile path bytes).run t =
      match t.writeSpot path with
      | .ok place => (.ok (), t.put place (.file (writtenMode (t.get? place)) bytes))
      | .error fault => (.error fault, t) := by
  rw [writeFile, run_step]
  cases t.writeSpot path <;> rfl

theorem mayWrite_writtenMode {place : Place}
    (allowed : ∀ mode bytes, t.get? place = some (.file mode bytes) → mayWrite mode = true) :
    mayWrite (writtenMode (t.get? place)) = true := by
  rcases there : t.get? place with _ | _ | ⟨mode, bytes⟩
  · exact mayWrite_newFileMode
  · exact mayWrite_newFileMode
  · exact allowed mode bytes there

theorem run_writeFile_eq_ok {bytes : ByteArray} (h : (writeFile path bytes).run t = (.ok (), u)) :
    ∃ place, t.fileSpot path = .ok place ∧
      u = t.put place (.file (writtenMode (t.get? place)) bytes) ∧
      mayWrite (writtenMode (t.get? place)) = true := by
  rw [run_writeFile] at h
  split at h
  · rename_i place spotted
    obtain ⟨spotted, allowed⟩ := FileTree.writeSpot_eq_ok spotted
    exact ⟨place, spotted, (Prod.mk.inj h).2.symm, mayWrite_writtenMode allowed⟩
  · cases h

/-- Setting a mode changes nothing but the mode of a file. -/
theorem setMode_cases (path : String) (mode : Nat) (t : FileTree) :
    (∃ fault, (setMode path mode).run t = (.error fault, t)) ∨
      ∃ place, t.find path = .ok place ∧
        ((∀ old bytes, t.get? place ≠ some (.file old bytes)) ∧
            (setMode path mode).run t = (.ok (), t) ∨
          ∃ old bytes, t.get? place = some (.file old bytes) ∧
            (setMode path mode).run t =
              (.ok (), t.put place (.file (permissionBits mode) bytes))) := by
  simp only [setMode, run_step]
  cases found : t.find path with
  | error fault => exact .inl ⟨fault, rfl⟩
  | ok place =>
      refine .inr ⟨place, rfl, ?_⟩
      rcases there : t.get? place with _ | _ | ⟨old, bytes⟩
      · exact .inl ⟨by simp, by simp [there, Bind.bind, Except.bind, pure, Except.pure]⟩
      · exact .inl ⟨by simp, by simp [there, Bind.bind, Except.bind, pure, Except.pure]⟩
      · exact .inr ⟨old, bytes, rfl, by simp [there, Bind.bind, Except.bind, pure, Except.pure]⟩

/-- A directory that is removed goes with everything below it, or stays empty if its path led through
what was removed. -/
theorem run_removeDir_eq_ok (run : (removeDir path).run t = (.ok (), u)) :
    ∃ place, t.find path = .ok place ∧ (u = (t.eraseBelow place).erase place ∨
      u = t.eraseBelow place ∧ (t.eraseBelow place).find path = .error .missing) := by
  obtain ⟨_, w, below, run⟩ := run_bind_eq_ok run
  have below := run_step_eq_ok below
  have itself := run_step_eq_ok run
  cases found : t.find path with
  | error fault =>
      rw [found] at below
      cases below
  | ok place =>
      refine ⟨place, rfl, ?_⟩
      simp only [found, Bind.bind, Except.bind] at below
      split at below
      · obtain rfl := Except.ok.inj below
        split at itself
        · exact .inr ⟨(Except.ok.inj itself).symm, ‹_›⟩
        · cases itself
        · rename_i again refound
          obtain rfl :=
            (FileTree.placeOf_of_find refound).symm.trans (FileTree.placeOf_of_find found)
          split at itself
          · exact .inl (Except.ok.inj itself).symm
          · cases itself
      · cases below

theorem get?_of_removeDir {place : Place} {node : Node} (run : (removeDir path).run t = (.ok (), u))
    (there : u.get? place = some node) : t.get? place = some node := by
  have below {other : Place} (there : (t.eraseBelow other).get? place = some node) :
      t.get? place = some node := by
    rw [FileTree.get?_eraseBelow] at there
    split at there
    · cases there
    · exact there
  obtain ⟨other, _, rfl | ⟨rfl, _⟩⟩ := run_removeDir_eq_ok run
  · rw [FileTree.get?_erase] at there
    split at there
    · cases there
    · exact below there
  · exact below there

/-- Moving a file does nothing or takes the file from its place to the other one. -/
theorem moveFile_cases (source target : String) (t : FileTree) :
    (∃ fault, (moveFile source target).run t = (.error fault, t)) ∨
      ∃ origin place mode bytes, t.find source = .ok origin ∧
        t.get? origin = some (.file mode bytes) ∧ t.fileSpot target = .ok place ∧
        (moveFile source target).run t = (.ok (), (t.erase origin).put place (.file mode bytes)) := by
  simp only [moveFile, run_step]
  cases found : t.find source with
  | error fault => exact .inl ⟨fault, rfl⟩
  | ok origin =>
      rcases there : t.get? origin with _ | _ | ⟨mode, bytes⟩
      · exact .inl ⟨.blocked, by simp only [there, Bind.bind, Except.bind]; rfl⟩
      · exact .inl ⟨.blocked, by simp only [there, Bind.bind, Except.bind]; rfl⟩
      · cases spotted : t.fileSpot target with
        | error fault => exact .inl ⟨fault, by simp [there, Bind.bind, Except.bind]⟩
        | ok place =>
            exact .inr ⟨origin, place, mode, bytes, rfl, there, rfl, by
              simp [there, Bind.bind, Except.bind, pure, Except.pure]⟩

/-- A file is put at its target; copied onto itself, it is emptied. -/
theorem run_copyFile {origin place : Place} {mode : Nat} {bytes : ByteArray}
    (found : t.find source = .ok origin) (there : t.get? origin = some (.file mode bytes))
    (readable : mayRead mode = true) (spotted : t.writeSpot target = .ok place) :
    (copyFile source target).run t =
      (.ok (), t.put place (.file mode (if origin = place then .empty else bytes))) := by
  have inner : origin ≠ [] := by
    rintro rfl
    simp [FileTree.get?] at there
  have emptied : (t.put place (.file mode .empty)).get? origin =
      some (.file mode (if origin = place then .empty else bytes)) := by
    rw [FileTree.get?_put, if_neg inner]
    split
    · rfl
    · exact there
  simp [copyFile, run_step, found, spotted, there, readable, emptied, FileTree.put_put, Bind.bind,
    Except.bind, pure, Except.pure]

/-- What copying a file goes through when it does not fail: a file that may be read, and a place where
one may be written. -/
structure Copying (source target : String) (t : FileTree) (origin place : Place) (mode : Nat)
    (bytes : ByteArray) : Prop where
  found : t.find source = .ok origin
  file : t.get? origin = some (.file mode bytes)
  readable : mayRead mode = true
  spotted : t.fileSpot target = .ok place
  allowed : ∀ mode bytes, t.get? place = some (.file mode bytes) → mayWrite mode = true

/-- Copying a file does nothing or puts it at its target. -/
theorem copyFile_cases (source target : String) (t : FileTree) :
    (∃ fault, (copyFile source target).run t = (.error fault, t)) ∨
      ∃ origin place mode bytes, Copying source target t origin place mode bytes ∧
        (copyFile source target).run t =
          (.ok (), t.put place (.file mode (if origin = place then .empty else bytes))) := by
  cases found : t.find source with
  | error fault => exact .inl ⟨fault, by simp [copyFile, run_step, found, Bind.bind, Except.bind]⟩
  | ok origin =>
      rcases there : t.get? origin with _ | _ | ⟨mode, bytes⟩
      · exact .inl ⟨.blocked, by
          simp only [copyFile, run_step, found, there, Bind.bind, Except.bind]; rfl⟩
      · exact .inl ⟨.blocked, by
          simp only [copyFile, run_step, found, there, Bind.bind, Except.bind]; rfl⟩
      · by_cases readable : mayRead mode = true
        · cases spotted : t.writeSpot target with
          | error fault =>
              exact .inl ⟨fault, by
                simp [copyFile, run_step, found, there, readable, spotted, Bind.bind, Except.bind,
                  pure, Except.pure]⟩
          | ok place =>
              obtain ⟨spot, allowed⟩ := FileTree.writeSpot_eq_ok spotted
              exact .inr ⟨origin, place, mode, bytes, ⟨found, there, readable, spot, allowed⟩,
                run_copyFile found there readable spotted⟩
        · exact .inl ⟨.blocked, by
            simp [copyFile, run_step, found, there, readable, Bind.bind, Except.bind]
            rfl⟩

section

variable [IsPreorder FileTree R]

theorem Keeps.makeDir (h : Puts R path .directory) : Keeps R (makeDir path) := by
  intro t
  rw [run_makeDir]
  cases spotted : t.directorySpot path with
  | error fault => exact refl_of R t
  | ok place =>
      obtain ⟨⟨idle, vacant⟩, free⟩ := FileTree.vacancy_of_directorySpot spotted
      exact h t idle place vacant (by simpa using free)

theorem Keeps.settleDir (h : Puts R path .directory) : Keeps R (settleDir path) :=
  Keeps.tryCatch (Keeps.makeDir h) fun fault => Keeps.bind Keeps.get fun t => by
    split
    · exact Keeps.pure ()
    · exact Keeps.throw fault

theorem Keeps.makeLineage {dirs : List String} (h : ∀ dir ∈ dirs, Puts R dir .directory) :
    Keeps R (makeLineage dirs) := by
  induction dirs with
  | nil => exact Keeps.throw Fault.missing
  | cons path above ih =>
      have here := h path List.mem_cons_self
      rw [Action.makeLineage]
      split
      · exact Keeps.pure ()
      · refine Keeps.tryCatch (Keeps.makeDir here) fun fault => ?_
        cases fault with
        | missing =>
            exact Keeps.bind (ih fun dir member => h dir (List.mem_cons_of_mem path member))
              fun _ => Keeps.settleDir here
        | blocked =>
            refine Keeps.bind Keeps.get fun t => ?_
            split
            · exact Keeps.pure ()
            · exact Keeps.throw Fault.blocked

theorem Keeps.makeDirs (h : ∀ dir ∈ Path.lineage path, Puts R dir .directory) :
    Keeps R (makeDirs path) :=
  Keeps.makeLineage h

theorem Keeps.writeFile {bytes : ByteArray} (h : ∀ mode, Puts R path (.file mode bytes)) :
    Keeps R (writeFile path bytes) := by
  intro t
  rw [run_writeFile]
  cases spotted : t.writeSpot path with
  | error fault => exact refl_of R t
  | ok place =>
      obtain ⟨vacant, free⟩ := FileTree.vacancy_of_fileSpot (FileTree.writeSpot_eq_ok spotted).1
      exact h _ t [] place vacant (by simpa using free)

theorem Keeps.setMode {mode : Nat} (h : ∀ t place old bytes, t.find path = .ok place →
    t.get? place = some (.file old bytes) → R t (t.put place (.file (permissionBits mode) bytes))) :
    Keeps R (setMode path mode) := by
  intro t
  rcases setMode_cases path mode t with
    ⟨fault, run⟩ | ⟨place, found, ⟨_, run⟩ | ⟨old, bytes, there, run⟩⟩
  · rw [run]
    exact refl_of R t
  · rw [run]
    exact refl_of R t
  · rw [run]
    exact h t place old bytes found there

theorem Keeps.copyFile (h : ∀ mode bytes, Puts R target (.file mode bytes)) :
    Keeps R (copyFile source target) := by
  intro t
  rcases copyFile_cases source target t with
    ⟨fault, run⟩ | ⟨origin, place, mode, bytes, copying, run⟩
  · rw [run]
    exact refl_of R t
  · obtain ⟨vacant, free⟩ := FileTree.vacancy_of_fileSpot copying.spotted
    rw [run]
    exact h mode _ t [] place vacant (by simpa using free)

theorem Keeps.removeDir (below : ∀ t place, t.find path = .ok place → R t (t.eraseBelow place))
    (itself : ∀ t place, t.find path = .ok place → R t (t.erase place)) :
    Keeps R (removeDir path) := by
  refine Keeps.bind (Keeps.step fun t u changed => ?_) fun _ => Keeps.step fun t u changed => ?_
  · cases found : t.find path with
    | error fault =>
        rw [found] at changed
        cases changed
    | ok place =>
        simp only [found, Bind.bind, Except.bind] at changed
        split at changed
        · exact Except.ok.inj changed ▸ below t place found
        · cases changed
  · split at changed
    · exact Except.ok.inj changed ▸ refl_of R t
    · cases changed
    · rename_i place found
      split at changed
      · exact Except.ok.inj changed ▸ itself t place found
      · cases changed

end

end Action

/-! ### Made directories -/

namespace FileTree

open ToolWrappers.Action ToolWrappers.Path

variable [User] {t u v : FileTree} {path : String} {place : Place}

theorem opens_of_isDirectory (h : t.isDirectory path = true) : t.Opens path := by
  obtain ⟨place, found, there⟩ := node?_eq_some (of_decide_eq_true h)
  intro other through
  rcases passes_directories_of_find found through with rfl | directory
  · exact isDirectoryAt_iff.mpr there
  · exact directory

theorem opens_of_makeDir (run : (makeDir path).run t = (.ok (), u)) : u.Opens path := by
  rw [run_makeDir] at run
  split at run
  · rename_i place spotted
    obtain rfl := (Prod.mk.inj run).2
    obtain ⟨⟨idle, vacant⟩, _⟩ := vacancy_of_directorySpot spotted
    intro other through
    rw [isDirectoryAt_iff]
    rcases vacant.passes_directories through with rfl | directory
    · exact vacant.get?_put
    · rw [get?_put, isDirectoryAt_iff.mp directory]
      split
      · rfl
      · split <;> rfl
  · cases run

theorem opens_of_settleDir (run : (settleDir path).run t = (.ok (), u)) : u.Opens path := by
  rw [settleDir, run_tryCatch] at run
  split at run
  · rename_i made
    exact opens_of_makeDir (run ▸ made)
  · rename_i fault v made
    rw [run_bind_of_ok (run_get v)] at run
    split at run
    · rename_i there
      obtain rfl := (Prod.mk.inj run).2
      exact opens_of_isDirectory there
    · cases run

/-- The empty path is passed over, even if the working directory is gone. -/
theorem opens_of_makeDirs (nonempty : path ≠ "") (run : (makeDirs path).run t = (.ok (), u)) :
    u.Opens path := by
  obtain ⟨above, shape⟩ := exists_lineage path
  rw [makeDirs, shape, makeLineage, if_neg nonempty, run_tryCatch] at run
  split at run
  · rename_i made
    exact opens_of_makeDir (run ▸ made)
  · rename_i fault v made
    cases fault with
    | missing =>
        obtain ⟨_, w, _, settled⟩ := run_bind_eq_ok run
        exact opens_of_settleDir settled
    | blocked =>
        rw [run_bind_of_ok (run_get v)] at run
        split at run
        · rename_i there
          obtain rfl := (Prod.mk.inj run).2
          exact opens_of_isDirectory there
        · cases run

end FileTree

end ToolWrappers

import Vyrm.Lib.FaultFs

/-!
# Rules for programs over a faulty file system

A weakest precondition for the programs of `FaultFs`. A postcondition sees how
the program ended (a result, an error or a crash), the files and the
process-local state it left behind; the position in the oracle's sequence is
hidden, so a rule holds at whatever moment the program is run. One rule for the
atomic operations, `wp_perform`, covers the pass, the refusal and the faults of
an operation, and the rules for single operations are instances of it.

`Grows` is the frame condition of programs that only add files: what was there
before is still there, unchanged.
-/

namespace Vyrm.Lib.FaultFs

section Wp

variable {P D ρ ε α β : Type}

/-- What is said about the end of a run. -/
abbrev Post (P ρ ε α : Type) := Except (Stop ε) α → Files P → ρ → Prop

/-- `body` ends in `post` whenever it is run on `files` and `process` under `oracle`. -/
def wp (oracle : Oracle P D) (body : Fs P D ρ ε α) (post : Post P ρ ε α) (files : Files P)
    (process : ρ) : Prop :=
  ∀ tick, match body ⟨files, process, oracle, tick⟩ with
    | .ok a w => w.oracle = oracle ∧ post (.ok a) w.files w.process
    | .error stop w => w.oracle = oracle ∧ post (.error stop) w.files w.process

variable {oracle : Oracle P D} {files : Files P} {process : ρ}

theorem wp.run_ok {body : Fs P D ρ ε α} {post : Post P ρ ε α} {a : α} {w w' : World P D ρ}
    (h : wp w.oracle body post w.files w.process) (run : body w = .ok a w') :
    w'.oracle = w.oracle ∧ post (.ok a) w'.files w'.process := by
  have result := h w.tick
  rw [run] at result
  exact result

theorem wp.run_error {body : Fs P D ρ ε α} {post : Post P ρ ε α} {stop : Stop ε}
    {w w' : World P D ρ} (h : wp w.oracle body post w.files w.process)
    (run : body w = .error stop w') : post (.error stop) w'.files w'.process := by
  have result := h w.tick
  rw [run] at result
  exact result.2

/-- A program whose every end is a result has one. -/
theorem wp.exists_run {body : Fs P D ρ ε α} {post : Post P ρ ε α} {w : World P D ρ}
    (h : wp w.oracle body post w.files w.process)
    (total : ∀ stop f p, ¬ post (.error stop) f p) :
    ∃ a w', body w = .ok a w' ∧ w'.oracle = w.oracle ∧ post (.ok a) w'.files w'.process := by
  have result := h w.tick
  split at result
  · rename_i a w' run
    exact ⟨a, w', run, result⟩
  · exact absurd result.2 (total _ _ _)

theorem wp.mono {body : Fs P D ρ ε α} {post post' : Post P ρ ε α}
    (h : wp oracle body post files process)
    (imp : ∀ r f p, post r f p → post' r f p) : wp oracle body post' files process := by
  intro tick
  have result := h tick
  split at result
  · exact ⟨result.1, imp _ _ _ result.2⟩
  · exact ⟨result.1, imp _ _ _ result.2⟩

theorem wp_pure {a : α} {post : Post P ρ ε α} (h : post (.ok a) files process) :
    wp oracle (pure a : Fs P D ρ ε α) post files process := fun _ => ⟨rfl, h⟩

theorem wp_throw {stop : Stop ε} {post : Post P ρ ε α} (h : post (.error stop) files process) :
    wp oracle (throw stop : Fs P D ρ ε α) post files process := fun _ => ⟨rfl, h⟩

/-- The postcondition of the first half of a sequential composition. -/
@[reducible] def Post.seq (oracle : Oracle P D) (next : α → Fs P D ρ ε β) (post : Post P ρ ε β) :
    Post P ρ ε α
  | .ok a, f, p => wp oracle (next a) post f p
  | .error stop, f, p => post (.error stop) f p

theorem wp_bind {body : Fs P D ρ ε α} {next : α → Fs P D ρ ε β} {post : Post P ρ ε β}
    (h : wp oracle body (Post.seq oracle next post) files process) :
    wp oracle (body >>= next) post files process := by
  intro tick
  have first := h tick
  change match (EStateM.bind body next) ⟨files, process, oracle, tick⟩ with
    | .ok a w => w.oracle = oracle ∧ post (.ok a) w.files w.process
    | .error stop w => w.oracle = oracle ∧ post (.error stop) w.files w.process
  unfold EStateM.bind
  split at first
  · rename_i a w run
    obtain ⟨same, second⟩ := first
    rw [run]
    obtain ⟨f, p, o, n⟩ := w
    subst same
    exact second n
  · rename_i stop w run
    rw [run]
    exact first

/-- Composition from a result of the first half that is described by `mid`. -/
theorem wp_bind_of {body : Fs P D ρ ε α} {next : α → Fs P D ρ ε β} {mid : Post P ρ ε α}
    {post : Post P ρ ε β} (first : wp oracle body mid files process)
    (ok : ∀ a f p, mid (.ok a) f p → wp oracle (next a) post f p)
    (stopped : ∀ stop f p, mid (.error stop) f p → post (.error stop) f p) :
    wp oracle (body >>= next) post files process := by
  apply wp_bind
  apply first.mono
  intro r f p h
  cases r with
  | ok a => exact ok a f p h
  | error stop => exact stopped stop f p h

/-- A pure fallible step. -/
theorem wp_lift {x : Except ε α} {next : α → Fs P D ρ ε β} {post : Post P ρ ε β}
    (ok : ∀ a, x = .ok a → wp oracle (next a) post files process)
    (failed : ∀ e, x = .error e → post (.error (.error e)) files process) :
    wp oracle ((liftM x : Fs P D ρ ε α) >>= next) post files process := by
  apply wp_bind
  cases x with
  | ok a => exact wp_pure (ok a rfl)
  | error e => exact wp_throw (failed e rfl)

/-- A pure fallible last step. -/
theorem wp_lift_last {x : Except ε α} {post : Post P ρ ε α}
    (ok : ∀ a, x = .ok a → post (.ok a) files process)
    (failed : ∀ e, x = .error e → post (.error (.error e)) files process) :
    wp oracle (liftM x : Fs P D ρ ε α) post files process := by
  cases x with
  | ok a => exact wp_pure (ok a rfl)
  | error e => exact wp_throw (failed e rfl)

theorem wp_ite {c : Prop} [Decidable c] {yes no : Fs P D ρ ε α} {post : Post P ρ ε α}
    (pos : c → wp oracle yes post files process) (neg : ¬ c → wp oracle no post files process) :
    wp oracle (if c then yes else no) post files process := by
  by_cases h : c
  · rw [if_pos h]
    exact pos h
  · rw [if_neg h]
    exact neg h

/-! ## Atomic operations -/

/-- Whether the oracle ever interferes with an operation. -/
def Faulty (oracle : Oracle P D) (op : FileOp P D) : Prop := ∃ tick, oracle tick op ≠ .pass

/-- Whether the oracle ever interferes at all. -/
def Hindered (oracle : Oracle P D) : Prop := ∃ op, Faulty oracle op

theorem Faulty.hindered {op : FileOp P D} (h : Faulty oracle op) : Hindered oracle := ⟨op, h⟩

theorem not_hindered_noFaults : ¬ Hindered (noFaults : Oracle P D) := fun ⟨_, _, h⟩ => h rfl

/-- The two ways in which an interfering oracle stops a program. -/
def Interrupted [HasIo ε] (stop : Stop ε) : Prop := stop = .crash ∨ stop = .error (HasIo.io .other)

variable [DecidableEq P] [HasIo ε]

omit [DecidableEq P] in
theorem wp_perform {op : FileOp P D} {act : Files P → Except IoKind (α × Files P)}
    {torn : Nat → Files P → Files P} {post : Post P ρ ε α}
    (pass : ∀ a f, act files = .ok (a, f) → post (.ok a) f process)
    (refused : ∀ kind, act files = .error kind →
      post (.error (.error (HasIo.io kind))) files process)
    (fault : ∀ stop n, Interrupted stop → Faulty oracle op →
      post (.error stop) (torn n files) process) :
    wp oracle (perform op act torn) post files process := by
  intro tick
  unfold perform
  dsimp only
  cases decision : oracle tick op with
  | pass =>
    dsimp only
    cases acted : act files with
    | ok result => exact ⟨rfl, pass _ _ acted⟩
    | error kind => exact ⟨rfl, refused kind acted⟩
  | error n =>
    exact ⟨rfl, fault _ n (.inr rfl) ⟨tick, by rw [decision]; simp⟩⟩
  | crash n =>
    exact ⟨rfl, fault _ n (.inl rfl) ⟨tick, by rw [decision]; simp⟩⟩

theorem wp_openCreate {path : P} {post : Post P ρ ε Unit}
    (pass : post (.ok ()) (if path ∈ files then files else files.insert path []) process)
    (fault : ∀ stop, Interrupted stop → Faulty oracle (.openCreate path) →
      post (.error stop) files process) :
    wp oracle (openCreate path) post files process := by
  apply wp_perform
  · intro a f acted
    cases acted
    exact pass
  · intro kind acted
    cases acted
  · exact fun stop _ => fault stop

theorem wp_createNew {path : P} {post : Post P ρ ε Unit}
    (pass : path ∉ files → post (.ok ()) (files.insert path []) process)
    (refused : path ∈ files → post (.error (.error (HasIo.io .alreadyExists))) files process)
    (fault : ∀ stop, Interrupted stop → Faulty oracle (.createNew path) →
      post (.error stop) files process) :
    wp oracle (createNew path) post files process := by
  apply wp_perform
  · intro a f acted
    split at acted <;> cases acted
    exact pass ‹_›
  · intro kind acted
    split at acted <;> cases acted
    exact refused ‹_›
  · exact fun stop _ => fault stop

theorem wp_writeAll {path : P} {data old : Bytes} {post : Post P ρ ε Unit}
    (present : files.lookup path = some old)
    (pass : old.length + data.length ≤ maxFileBytes →
      post (.ok ()) (files.insert path (old ++ data)) process)
    (refused : ¬ old.length + data.length ≤ maxFileBytes →
      post (.error (.error (HasIo.io .fileTooLarge))) files process)
    (fault : ∀ stop n, Interrupted stop → Faulty oracle (.write path) →
      post (.error stop) (files.insert path (old ++ data.take n)) process) :
    wp oracle (writeAll path data) post files process := by
  apply wp_perform
  · intro a f acted
    simp only [present] at acted
    split at acted <;> cases acted
    exact pass ‹_›
  · intro kind acted
    simp only [present] at acted
    split at acted <;> cases acted
    exact refused ‹_›
  · intro stop n
    simp only [present]
    exact fault stop n

omit [DecidableEq P] in
theorem wp_syncFile {path : P} {post : Post P ρ ε Unit} (pass : post (.ok ()) files process)
    (fault : ∀ stop, Interrupted stop → Faulty oracle (.sync path) →
      post (.error stop) files process) :
    wp oracle (syncFile path) post files process := by
  apply wp_perform
  · intro a f acted
    cases acted
    exact pass
  · intro kind acted
    cases acted
  · exact fun stop _ => fault stop

omit [DecidableEq P] in
theorem wp_syncDirectory {directory : D} {post : Post P ρ ε Unit}
    (pass : post (.ok ()) files process)
    (fault : ∀ stop, Interrupted stop → Faulty oracle (.syncDirectory directory) →
      post (.error stop) files process) :
    wp oracle (syncDirectory directory) post files process := by
  apply wp_perform
  · intro a f acted
    cases acted
    exact pass
  · intro kind acted
    cases acted
  · exact fun stop _ => fault stop

theorem wp_rename {source target : P} {bytes : Bytes} {post : Post P ρ ε Unit}
    (present : files.lookup source = some bytes)
    (pass : post (.ok ()) ((files.erase source).insert target bytes) process)
    (fault : ∀ stop, Interrupted stop → Faulty oracle (.rename source target) →
      post (.error stop) files process) :
    wp oracle (rename source target) post files process := by
  apply wp_perform
  · intro a f acted
    simp only [present] at acted
    cases acted
    exact pass
  · intro kind acted
    simp only [present] at acted
    cases acted
  · exact fun stop _ => fault stop

theorem wp_removeFile {path : P} {post : Post P ρ ε Unit}
    (pass : path ∈ files → post (.ok ()) (files.erase path) process)
    (refused : path ∉ files → post (.error (.error (HasIo.io .notFound))) files process)
    (fault : ∀ stop, Interrupted stop → Faulty oracle (.remove path) →
      post (.error stop) files process) :
    wp oracle (removeFile path) post files process := by
  apply wp_perform
  · intro a f acted
    split at acted <;> cases acted
    exact pass ‹_›
  · intro kind acted
    split at acted <;> cases acted
    exact refused ‹_›
  · exact fun stop _ => fault stop

theorem wp_readFile {path : P} {post : Post P ρ ε Bytes}
    (pass : ∀ bytes, files.lookup path = some bytes → post (.ok bytes) files process)
    (refused : files.lookup path = none →
      post (.error (.error (HasIo.io .notFound))) files process)
    (fault : ∀ stop, Interrupted stop → Faulty oracle (.read path) →
      post (.error stop) files process) :
    wp oracle (readFile path) post files process := by
  apply wp_perform
  · intro a f acted
    split at acted <;> cases acted
    exact pass _ ‹_›
  · intro kind acted
    split at acted <;> cases acted
    exact refused ‹_›
  · exact fun stop _ => fault stop

theorem wp_fileLength {path : P} {bytes : Bytes} {post : Post P ρ ε Nat}
    (present : files.lookup path = some bytes)
    (pass : post (.ok bytes.length) files process)
    (fault : ∀ stop, Interrupted stop → Faulty oracle (.read path) →
      post (.error stop) files process) :
    wp oracle (fileLength path) post files process := by
  apply wp_perform
  · intro a f acted
    simp only [present] at acted
    cases acted
    exact pass
  · intro kind acted
    simp only [present] at acted
    cases acted
  · exact fun stop _ => fault stop

theorem wp_setLen {path : P} {length : Nat} {old : Bytes} {post : Post P ρ ε Unit}
    (present : files.lookup path = some old)
    (pass : post (.ok ())
      (files.insert path (old.take length ++ List.replicate (length - old.length) 0)) process)
    (fault : ∀ stop, Interrupted stop → Faulty oracle (.setLen path) →
      post (.error stop) files process) :
    wp oracle (setLen path length) post files process := by
  apply wp_perform
  · intro a f acted
    simp only [present] at acted
    cases acted
    exact pass
  · intro kind acted
    simp only [present] at acted
    cases acted
  · exact fun stop _ => fault stop

omit [HasIo ε] in
theorem wp_pathExists {path : P} {post : Post P ρ ε Bool}
    (h : post (.ok (decide (path ∈ files))) files process) :
    wp oracle (pathExists path) post files process := fun _ => ⟨rfl, h⟩

/-- The postcondition of a body whose errors reach a handler. -/
@[reducible] def Post.handled (oracle : Oracle P D) (handler : ε → Fs P D ρ ε α) (post : Post P ρ ε α) :
    Post P ρ ε α
  | .error (.error e), f, p => wp oracle (handler e) post f p
  | r, f, p => post r f p

omit [DecidableEq P] [HasIo ε] in
theorem wp_onError {body : Fs P D ρ ε α} {handler : ε → Fs P D ρ ε α} {post : Post P ρ ε α}
    (h : wp oracle body (Post.handled oracle handler post) files process) :
    wp oracle (onError body handler) post files process := by
  intro tick
  have inner := h tick
  unfold onError
  cases run : body ⟨files, process, oracle, tick⟩ with
  | ok a w =>
    rw [run] at inner
    exact inner
  | error stop w =>
    rw [run] at inner
    obtain ⟨same, handled⟩ := inner
    cases stop with
    | crash => exact ⟨same, handled⟩
    | error e =>
      obtain ⟨f, p, o, n⟩ := w
      dsimp only at same
      subst same
      exact handled n

end Wp

/-! ## Programs that only add files -/

section Grows

variable {P : Type} [DecidableEq P] {base files files' : Files P} {path : P} {bytes : Bytes}

/-- Every file of `files` is in `files'` with the same content. -/
def Grows (files files' : Files P) : Prop :=
  ∀ path bytes, files.lookup path = some bytes → files'.lookup path = some bytes

@[refl] theorem Grows.refl (files : Files P) : Grows files files := fun _ _ h => h

theorem Grows.trans {files'' : Files P} (h : Grows files files') (h' : Grows files' files'') :
    Grows files files'' := fun path bytes found => h' path bytes (h path bytes found)

theorem lookup_eq_none_of_notMem (fresh : path ∉ files) : files.lookup path = none :=
  AList.lookup_eq_none.mpr fresh

theorem mem_of_lookup (found : files.lookup path = some bytes) : path ∈ files := by
  rw [← AList.lookup_isSome, found]
  rfl

theorem Grows.mem (h : Grows files files') (found : path ∈ files) : path ∈ files' := by
  obtain ⟨bytes, found⟩ := Option.isSome_iff_exists.mp (AList.lookup_isSome.mpr found)
  exact mem_of_lookup (h path bytes found)

theorem Grows.insert (h : Grows base files) (fresh : path ∉ base) :
    Grows base (files.insert path bytes) := by
  intro other content found
  have different : other ≠ path := by
    rintro rfl
    exact fresh (mem_of_lookup found)
  rw [AList.lookup_insert_ne different]
  exact h other content found

theorem Grows.erase (h : Grows base files) (fresh : path ∉ base) :
    Grows base (files.erase path) := by
  intro other content found
  have different : other ≠ path := by
    rintro rfl
    exact fresh (mem_of_lookup found)
  rw [AList.lookup_erase_ne different]
  exact h other content found

theorem grows_erase_self (files : Files P) (path : P) : Grows (files.erase path) files := by
  intro other content found
  by_cases same : other = path
  · subst same
    rw [AList.lookup_erase] at found
    cases found
  · rwa [AList.lookup_erase_ne same] at found

theorem Grows.lookup_erase (h : Grows (files.erase path) files') {other : P}
    (different : other ≠ path) (found : files.lookup other = some bytes) :
    files'.lookup other = some bytes :=
  h other bytes (by rwa [AList.lookup_erase_ne different])

end Grows

/-! ## Programs that leave some files alone -/

section Spares

variable {P D ρ ε α β : Type} {oracle : Oracle P D} {kept : P → Prop}

/-- However `body` ends, the files in `kept` are as they were. -/
def Spares (oracle : Oracle P D) (kept : P → Prop) [DecidableEq P] (body : Fs P D ρ ε α) : Prop :=
  ∀ files process, wp oracle body
    (fun _ f _ => ∀ path, kept path → f.lookup path = files.lookup path) files process

variable [DecidableEq P]

theorem spares_pure (a : α) : Spares oracle kept (pure a : Fs P D ρ ε α) :=
  fun _ _ => wp_pure fun _ _ => rfl

theorem spares_throw (stop : Stop ε) : Spares oracle kept (throw stop : Fs P D ρ ε α) :=
  fun _ _ => wp_throw fun _ _ => rfl

theorem Spares.bind {body : Fs P D ρ ε α} {next : α → Fs P D ρ ε β}
    (first : Spares oracle kept body) (second : ∀ a, Spares oracle kept (next a)) :
    Spares oracle kept (body >>= next) := by
  intro files process
  apply wp_bind_of (first files process)
  · intro a f p same
    apply (second a f p).mono
    intro r g q further path isKept
    rw [further path isKept, same path isKept]
  · exact fun _ _ _ same => same

theorem spares_lift (x : Except ε α) : Spares oracle kept (liftM x : Fs P D ρ ε α) := by
  cases x with
  | ok a => exact spares_pure a
  | error e => exact spares_throw _

theorem spares_ite {c : Prop} [Decidable c] {yes no : Fs P D ρ ε α}
    (pos : Spares oracle kept yes) (neg : Spares oracle kept no) :
    Spares oracle kept (if c then yes else no) :=
  fun files process => wp_ite (fun _ => pos files process) (fun _ => neg files process)

/-- A loop over a list leaves alone what its body does. -/
theorem spares_mapM {body : α → Fs P D ρ ε β} (each : ∀ a, Spares oracle kept (body a))
    (items : List α) : Spares oracle kept (items.mapM body) := by
  induction items with
  | nil =>
    rw [List.mapM_nil]
    exact spares_pure _
  | cons a rest ih =>
    rw [List.mapM_cons]
    exact (each a).bind fun b => ih.bind fun rest => spares_pure _

variable [HasIo ε]

theorem spares_readFile (path : P) : Spares oracle kept (readFile path : Fs P D ρ ε Bytes) :=
  fun _ _ => wp_readFile (fun _ _ _ _ => rfl) (fun _ _ _ => rfl) (fun _ _ _ _ _ => rfl)

theorem spares_syncFile (path : P) : Spares oracle kept (syncFile path : Fs P D ρ ε Unit) :=
  fun _ _ => wp_syncFile (fun _ _ => rfl) (fun _ _ _ _ _ => rfl)

theorem spares_syncDirectory (directory : D) :
    Spares oracle kept (syncDirectory directory : Fs P D ρ ε Unit) :=
  fun _ _ => wp_syncDirectory (fun _ _ => rfl) (fun _ _ _ _ _ => rfl)

theorem spares_removeFile {path : P} (removable : ¬ kept path) :
    Spares oracle kept (removeFile path : Fs P D ρ ε Unit) := by
  intro files process
  apply wp_removeFile
  · intro _ other isKept
    apply AList.lookup_erase_ne
    rintro rfl
    exact removable isKept
  · exact fun _ _ _ => rfl
  · exact fun _ _ _ _ _ => rfl

theorem spares_createNew {path : P} (removable : ¬ kept path) :
    Spares oracle kept (createNew path : Fs P D ρ ε Unit) := by
  intro files process
  apply wp_createNew
  · intro _ other isKept
    apply AList.lookup_insert_ne
    rintro rfl
    exact removable isKept
  · exact fun _ _ _ => rfl
  · exact fun _ _ _ _ _ => rfl

theorem spares_writeAll {path : P} {data : Bytes} (removable : ¬ kept path) :
    Spares oracle kept (writeAll path data : Fs P D ρ ε Unit) := by
  intro files process
  have inserted : ∀ bytes other, kept other →
      (files.insert path bytes).lookup other = files.lookup other := by
    intro bytes other isKept
    apply AList.lookup_insert_ne
    rintro rfl
    exact removable isKept
  apply wp_perform
  · intro a f acted
    split at acted
    · cases acted
    · split at acted <;> cases acted
      exact inserted _
  · exact fun _ _ _ _ => rfl
  · intro stop n _ _
    split
    · exact fun _ _ => rfl
    · exact inserted _

theorem spares_rename {source target : P} (fromRemovable : ¬ kept source)
    (toRemovable : ¬ kept target) :
    Spares oracle kept (rename source target : Fs P D ρ ε Unit) := by
  intro files process
  apply wp_perform
  · intro a f acted
    split at acted <;> cases acted
    intro other isKept
    rw [AList.lookup_insert_ne (by rintro rfl; exact toRemovable isKept),
      AList.lookup_erase_ne (by rintro rfl; exact fromRemovable isKept)]
  · exact fun _ _ _ _ => rfl
  · exact fun _ _ _ _ _ _ => rfl

omit [HasIo ε] in
theorem Spares.onError {body : Fs P D ρ ε α} {handler : ε → Fs P D ρ ε α}
    (spares : Spares oracle kept body) (handled : ∀ e, Spares oracle kept (handler e)) :
    Spares oracle kept (FaultFs.onError body handler) := by
  intro files process
  apply wp_onError
  apply (spares files process).mono
  rintro ((e | _) | a) f p same
  · apply (handled e f p).mono
    intro r g q further path isKept
    rw [further path isKept, same path isKept]
  · exact same
  · exact same

end Spares
end Vyrm.Lib.FaultFs

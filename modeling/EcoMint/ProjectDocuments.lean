import EcoMint.Tasks

/-!
# The documents of a project

An upload pins its files one after another, then reads the list of the project's
documents from Redis, appends the new hashes and writes the list back.  Between
the read and the write other uploads may do the same, and a read that fails counts
as an empty list.

The list never holds anything but uploaded hashes, in the order in which their
uploads returned.  It holds all of them, throughout a run, exactly if no upload
wrote without having seen the ones before, and no write with hashes was lost.
-/

namespace EcoMint.Documents

open Storage

/-! ## The uploads -/

/-- A file that is uploaded. -/
structure UploadFile where
  buffer : List UInt8
  originalname : String
  mimetype : Option String

/-- The lists under `project:{id}:documents`. -/
abbrev Redis := Storage Nat (List String)

/-- The documents in the cache. -/
def stored (redis : Redis) (id : Nat) : List String := (redis.get id).getD []

/-- What an upload returns. -/
structure DocumentUploadResponse where
  projectId : Nat
  documentHashes : List String
  gatewayUrls : List String

/-- The gateway's URL of a file is the base with the hash. -/
def response (gateway : String) (id : Nat) (documentHashes : List String) :
    DocumentUploadResponse :=
  ⟨id, documentHashes, documentHashes.map (gateway ++ ·)⟩

/-- `uploadDocuments` between its waits. -/
inductive Upload
  | pinning (id : Nat) (files : List UploadFile) (documentHashes : List String)
  | reading (id : Nat) (documentHashes : List String)
  | writing (id : Nat) (existing : Option (List String)) (documentHashes : List String)
  | returned (response : DocumentUploadResponse)
  | thrown

/-- What a wait ends with: the hash of a pinned file, unless the file is refused or
cannot be pinned, and whether Redis answers. -/
inductive Reply
  | pinned (hash : Option String)
  | redis (ok : Bool)

/-- With no file left the loop is over. -/
def Upload.next (id : Nat) (files : List UploadFile) (documentHashes : List String) : Upload :=
  match files with
  | [] => .reading id documentHashes
  | file :: rest => .pinning id (file :: rest) documentHashes

/-- One step of an upload: a file is pinned, the list is read, or the longer list is
written. -/
def Upload.resume (gateway : String) (redis : Redis) : Upload → Reply → Option (Redis × Upload)
  | .pinning id (_ :: files) documentHashes, .pinned (some hash) =>
      some (redis, .next id files (documentHashes ++ [hash]))
  | .pinning _ (_ :: _) _, .pinned none => some (redis, .thrown)
  | .reading id documentHashes, .redis ok =>
      some (redis, .writing id (if ok then redis.get id else none) documentHashes)
  | .writing id existing documentHashes, .redis ok =>
      let allHashes := existing.getD [] ++ documentHashes
      some (if ok then redis.set id allHashes else redis,
        .returned (response gateway id documentHashes))
  | _, _ => none

/-- Uploads for any projects at the same time. -/
def program (gateway : String) : TaskProgram Redis Upload (Nat × List UploadFile) Reply Empty where
  start input := .next input.1 input.2 []
  resume := Upload.resume gateway
  outside _ event := nomatch event

/-- The uploads under way, with the cache between them. -/
abbrev UploadPool := Pool Redis Upload

/-- A step of one upload, or a new upload. -/
abbrev UploadAction := PoolAction (Nat × List UploadFile) Reply Empty

/-- A step of the uploads as it was made. -/
abbrev LogEntry := Event UploadPool UploadAction Unit

/-! ## What is recorded and what is seen -/

/-- The upload of project `id` that writes in this step, with its hashes and
whether the write goes through. -/
def writes (id : Nat) (e : LogEntry) : Option (Nat × List String × Bool) :=
  match e.input with
  | .resume n (.redis ok) =>
      match e.before.tasks.get n with
      | some (.writing id' _ documentHashes) =>
          if id' = id then some (n, documentHashes, ok) else none
      | _ => none
  | _ => none

/-- The hashes of project `id` whose upload returns with this step. -/
def recorded (id : Nat) (e : LogEntry) : List String :=
  match writes id e with
  | some (_, documentHashes, _) => documentHashes
  | none => []

/-- In this step the upload `n` gets the list of project `id`. -/
def reads (id n : Nat) (e : LogEntry) : Bool :=
  match e.input with
  | .resume n' (.redis true) =>
      match e.before.tasks.get n' with
      | some (.reading id' _) => n' = n && id' = id
      | _ => false
  | _ => false

/-- What was there at the start, and all hashes since, in the order of the writes. -/
def uploaded (s : Redis) (id : Nat) (l : List LogEntry) : List String :=
  stored s id ++ l.flatMap (recorded id)

/-- What the upload `n` has not seen of these. -/
def unseen (s : Redis) (id n : Nat) (l : List LogEntry) : List String :=
  l.foldl (fun hashes e => if reads id n e then [] else hashes ++ recorded id e) (stored s id)

/-- An upload that writes has seen everything, and its write goes through or adds
nothing. -/
def InTurn (s : Redis) (id : Nat) (l : List LogEntry) (e : LogEntry) : Prop :=
  match writes id e with
  | some (n, _, true) => unseen s id n l = []
  | some (_, documentHashes, false) => documentHashes = []
  | none => True

variable {gateway : String} {s : Redis} {p : UploadPool} {id n m : Nat} {l : List LogEntry}
  {e : LogEntry}

@[simp] theorem uploaded_nil : uploaded s id [] = stored s id := by
  simp [uploaded]

@[simp] theorem uploaded_snoc : uploaded s id (l ++ [e]) = uploaded s id l ++ recorded id e := by
  simp [uploaded]

@[simp] theorem unseen_nil : unseen s id n [] = stored s id := rfl

theorem unseen_snoc : unseen s id n (l ++ [e]) =
    if reads id n e then [] else unseen s id n l ++ recorded id e := by
  simp [unseen]

/-- What a write records. -/
theorem recorded_of_writes {documentHashes : List String} {ok : Bool}
    (h : writes id e = some (n, documentHashes, ok)) : recorded id e = documentHashes := by
  rw [recorded, h]

/-- A step that writes nothing records nothing. -/
theorem recorded_of_none (h : writes id e = none) : recorded id e = [] := by
  rw [recorded, h]

/-! ## One step -/

/-- What an upload has read and what it has not seen make up what is recorded. -/
def Agrees (s : Redis) (id n : Nat) (l : List LogEntry) : Option Upload → Prop
  | some (.writing id' existing _) =>
      id' = id → existing.getD [] ++ unseen s id n l = uploaded s id l
  | some (.returned _) => True
  | some .thrown => True
  | _ => unseen s id n l = uploaded s id l

/-- What a step is for a project: none of its business, the read of an upload, or
the write of one. -/
inductive UploadStep (gateway : String) (id : Nat) (e : LogEntry) : Prop
  | idle (n : Nat) (upload : Upload)
      (htasks : e.after.tasks = e.before.tasks.set n upload)
      (hstored : stored e.after.shared id = stored e.before.shared id)
      (hwrites : writes id e = none) (hreads : ∀ m, reads id m e = false)
      (hagrees : ∀ s l, Agrees s id n l (e.before.tasks.get n) → Agrees s id n l (some upload))
      (hunread : ∀ existing documentHashes, upload ≠ .writing id existing documentHashes)
  | read (n : Nat) (documentHashes : List String) (ok : Bool)
      (hget : e.before.tasks.get n = some (.reading id documentHashes))
      (htasks : e.after.tasks = e.before.tasks.set n
        (.writing id (if ok then e.before.shared.get id else none) documentHashes))
      (hstored : stored e.after.shared id = stored e.before.shared id)
      (hwrites : writes id e = none) (hreads : ∀ m, reads id m e = (ok && decide (n = m)))
  | wrote (n : Nat) (existing : Option (List String)) (documentHashes : List String) (ok : Bool)
      (hget : e.before.tasks.get n = some (.writing id existing documentHashes))
      (htasks : e.after.tasks = e.before.tasks.set n
        (.returned (response gateway id documentHashes)))
      (hstored : stored e.after.shared id =
        if ok then existing.getD [] ++ documentHashes else stored e.before.shared id)
      (hwrites : writes id e = some (n, documentHashes, ok)) (hreads : ∀ m, reads id m e = false)

/-- An upload that goes on to the next file agrees with the list. -/
theorem agrees_next {id' : Nat} {files : List UploadFile} {documentHashes : List String}
    (h : unseen s id n l = uploaded s id l) :
    Agrees s id n l (some (.next id' files documentHashes)) := by
  cases files <;> exact h

/-- An upload that goes on is not about to write. -/
theorem next_ne_writing {id' : Nat} {files : List UploadFile} {documentHashes : List String}
    (existing : Option (List String)) (other : List String) :
    Upload.next id' files documentHashes ≠ .writing id existing other := by
  intro heq
  cases files <;> cases heq

@[simp] theorem stored_set_self (hashes : List String) : stored (s.set id hashes) id = hashes := by
  simp [stored]

/-- A write leaves the other projects alone. -/
theorem stored_set_ne {id' : Nat} (h : id' ≠ id) (hashes : List String) :
    stored (s.set id' hashes) id = stored s id := by
  rw [stored, get_set_ne _ _ h.symm, stored]

/-- **Step lemma.** -/
theorem uploadStep_of_fires (h : (program gateway).machine.Fires e) (id : Nat) :
    UploadStep gateway id e := by
  cases (program gateway).step_cases h with
  | started n input hinput hnew hafter =>
      refine .idle n (.next input.1 input.2 []) (by rw [hafter]; rfl) (by rw [hafter])
        (by rw [writes, hinput]) (fun m => by rw [reads, hinput]) ?_ next_ne_writing
      intro s l hagrees
      rw [hnew] at hagrees
      exact agrees_next hagrees
  | resumed n choice t t' redis hinput hget hresume hafter =>
      cases t with
      | pinning id' files documentHashes =>
          cases files with
          | nil => cases choice <;> cases hresume
          | cons file files =>
              cases choice with
              | redis ok => cases hresume
              | pinned hash =>
                  have hwrites : writes id e = none := by rw [writes, hinput]
                  have hreads : ∀ m, reads id m e = false := fun m => by rw [reads, hinput]
                  cases hash with
                  | none =>
                      cases hresume
                      exact .idle n .thrown (by rw [hafter]) (by rw [hafter]) hwrites hreads
                        (fun _ _ _ => trivial) (fun _ _ heq => by cases heq)
                  | some hash =>
                      cases hresume
                      refine .idle n _ (by rw [hafter]) (by rw [hafter]) hwrites hreads ?_
                        next_ne_writing
                      intro s l hagrees
                      rw [hget] at hagrees
                      exact agrees_next hagrees
      | reading id' documentHashes =>
          cases choice with
          | pinned hash => cases hresume
          | redis ok =>
              cases hresume
              have hwrites : writes id e = none := by simp [writes, hinput, hget]
              by_cases hid : id' = id
              · subst hid
                exact .read n documentHashes ok hget (by rw [hafter]) (by rw [hafter]) hwrites
                  (fun m => by cases ok <;> simp [reads, hinput, hget])
              · refine .idle n (.writing id' (if ok then e.before.shared.get id' else none)
                  documentHashes) (by rw [hafter]) (by rw [hafter]) hwrites
                  (fun m => by cases ok <;> simp [reads, hinput, hget, hid]) ?_ ?_
                · intro s l _ heq
                  exact absurd heq hid
                · intro existing other heq
                  cases heq
                  exact hid rfl
      | writing id' existing documentHashes =>
          cases choice with
          | pinned hash => cases hresume
          | redis ok =>
              cases hresume
              have hreads : ∀ m, reads id m e = false := fun m => by
                cases ok <;> simp [reads, hinput, hget]
              by_cases hid : id' = id
              · subst hid
                exact .wrote n existing documentHashes ok hget (by rw [hafter])
                  (by rw [hafter]; cases ok <;> simp) (by simp [writes, hinput, hget]) hreads
              · refine .idle n (.returned (response gateway id' documentHashes))
                  (by rw [hafter]) ?_ (by simp [writes, hinput, hget, hid]) hreads
                  (fun _ _ _ => trivial) (fun _ _ heq => by cases heq)
                rw [hafter]
                cases ok with
                | true => exact stored_set_ne hid _
                | false => rfl
      | returned response => cases hresume
      | thrown => cases hresume
  | outside event shared hinput houtside hafter => exact event.elim

theorem agrees_initial : Agrees s id m [] ((Pool.initial s : UploadPool).tasks.get m) := by
  show unseen s id m [] = uploaded s id []
  rw [unseen_nil, uploaded_nil]

/-- A step that gives the upload `m` nothing to read. -/
theorem Agrees.snoc {t : Option Upload} (h : Agrees s id m l t) (hreads : reads id m e = false) :
    Agrees s id m (l ++ [e]) t := by
  have hunseen : unseen s id m (l ++ [e]) = unseen s id m l ++ recorded id e := by
    rw [unseen_snoc, hreads, if_neg Bool.false_ne_true]
  match t with
  | none | some (.pinning ..) | some (.reading ..) =>
      show unseen s id m (l ++ [e]) = uploaded s id (l ++ [e])
      rw [hunseen, uploaded_snoc]
      exact congrArg (· ++ recorded id e) h
  | some (.writing id' existing _) =>
      intro hid
      rw [hunseen, uploaded_snoc, ← List.append_assoc, h hid]
  | some (.returned _) | some .thrown => trivial

/-- Agreement of all uploads from that of one and of the others. -/
theorem agrees_set {tasks : Storage Nat Upload} {upload : Upload}
    (hown : Agrees s id n l (some upload))
    (hother : ∀ m, m ≠ n → Agrees s id m l (tasks.get m)) (m : Nat) :
    Agrees s id m l ((tasks.set n upload).get m) := by
  rw [get_set]
  split
  · next hm =>
      subst hm
      exact hown
  · next hm => exact hother m hm

/-- As long as the list is complete, what every upload has read and what it has not
seen make it up. -/
theorem UploadStep.agrees (h : UploadStep gateway id e)
    (hkept : stored e.before.shared id = uploaded s id l)
    (hagrees : ∀ m, Agrees s id m l (e.before.tasks.get m)) (m : Nat) :
    Agrees s id m (l ++ [e]) (e.after.tasks.get m) := by
  cases h with
  | idle n upload htasks hstored hwrites hreads hown hunread =>
      rw [htasks]
      exact agrees_set ((hown s l (hagrees n)).snoc (hreads n))
        (fun m _ => (hagrees m).snoc (hreads m)) m
  | read n documentHashes ok hget htasks hstored hwrites hreads =>
      rw [htasks]
      refine agrees_set ?_ (fun m hm => (hagrees m).snoc (by simp [hreads m, Ne.symm hm])) m
      intro _
      rw [unseen_snoc, uploaded_snoc, recorded_of_none hwrites, hreads n]
      cases ok with
      | true => simpa [stored] using hkept
      | false =>
          have hown : unseen s id n l = uploaded s id l := by
            have hread := hagrees n
            rwa [hget] at hread
          simpa using hown
  | wrote n existing documentHashes ok hget htasks hstored hwrites hreads =>
      rw [htasks]
      refine agrees_set ?_ (fun m _ => (hagrees m).snoc (hreads m)) m
      trivial

/-- A complete list stays complete exactly if the step is in turn. -/
theorem UploadStep.kept_iff (h : UploadStep gateway id e)
    (hkept : stored e.before.shared id = uploaded s id l)
    (hagrees : ∀ m, Agrees s id m l (e.before.tasks.get m)) :
    stored e.after.shared id = uploaded s id (l ++ [e]) ↔ InTurn s id l e := by
  rw [uploaded_snoc]
  cases h with
  | idle n upload htasks hstored hwrites hreads hown hunread =>
      simp [InTurn, hwrites, recorded_of_none hwrites, hstored, hkept]
  | read n documentHashes ok hget htasks hstored hwrites hreads =>
      simp [InTurn, hwrites, recorded_of_none hwrites, hstored, hkept]
  | wrote n existing documentHashes ok hget htasks hstored hwrites hreads =>
      have hown := hagrees n
      rw [hget] at hown
      have hlist : existing.getD [] ++ unseen s id n l = uploaded s id l := hown rfl
      rw [hstored, recorded_of_writes hwrites]
      unfold InTurn
      rw [hwrites]
      cases ok with
      | true => simp [← hlist]
      | false => simp [hkept]

/-! ## Runs -/

/-- While the list keeps every document, every upload agrees with it. -/
theorem agrees_run (schedule : List UploadAction)
    (hkept : ∀ pre, pre <+: schedule → stored ((program gateway).run s pre).shared id =
      uploaded s id ((program gateway).log s pre)) (m : Nat) :
    Agrees s id m ((program gateway).log s schedule)
      (((program gateway).run s schedule).tasks.get m) := by
  induction schedule using List.reverseRecOn generalizing m with
  | nil => exact agrees_initial
  | append_singleton schedule a ih =>
      have hshorter : schedule <+: schedule ++ [a] := List.prefix_append schedule [a]
      have hagrees := ih fun pre hpre => hkept pre (hpre.trans hshorter)
      rcases (program gateway).machine.snoc_cases (Pool.initial s) schedule a with
        ⟨hrun, hlog⟩ | ⟨e, hfires, _, hbefore, hrun, hlog⟩
      · rw [TaskProgram.run, TaskProgram.log, hrun, hlog]
        exact hagrees m
      · rw [TaskProgram.run, TaskProgram.log, hrun, hlog]
        exact (uploadStep_of_fires hfires id).agrees (by rw [hbefore]; exact hkept _ hshorter)
          (fun m => by rw [hbefore]; exact hagrees m) m

/-- What is stored, and what an upload has read, is some of what was uploaded. -/
structure ListInvariant (s : Redis) (id : Nat) (p : UploadPool) (l : List LogEntry) : Prop where
  stored_sublist : (stored p.shared id).Sublist (uploaded s id l)
  read_sublist : ∀ n existing documentHashes,
    p.tasks.get n = some (.writing id existing documentHashes) →
      (existing.getD []).Sublist (uploaded s id l)

/-- What an upload is about to put before its hashes, it was about to put there already,
or has just read. -/
theorem UploadStep.writing_cases (h : UploadStep gateway id e)
    {existing : Option (List String)} {documentHashes : List String}
    (hget : e.after.tasks.get m = some (.writing id existing documentHashes)) :
    e.before.tasks.get m = some (.writing id existing documentHashes) ∨
      (existing.getD []).Sublist (stored e.before.shared id) := by
  cases h with
  | idle n upload htasks hstored hwrites hreads hown hunread =>
      rw [htasks, get_set] at hget
      split at hget
      · cases hget
        exact absurd rfl (hunread existing documentHashes)
      · exact .inl hget
  | read n _ ok _ htasks hstored hwrites hreads =>
      rw [htasks, get_set] at hget
      split at hget
      · cases hget
        cases ok with
        | true => exact .inr (List.Sublist.refl _)
        | false => exact .inr (List.nil_sublist _)
      · exact .inl hget
  | wrote n _ _ ok _ htasks hstored hwrites hreads =>
      rw [htasks, get_set] at hget
      split at hget
      · cases hget
      · exact .inl hget

/-- A step keeps the invariant. -/
theorem ListInvariant.step (h : UploadStep gateway id e) (hinv : ListInvariant s id e.before l) :
    ListInvariant s id e.after (l ++ [e]) := by
  have hgrow : (uploaded s id l).Sublist (uploaded s id (l ++ [e])) := by
    rw [uploaded_snoc]
    exact List.sublist_append_left _ _
  have hkept : (stored e.before.shared id).Sublist (uploaded s id (l ++ [e])) :=
    hinv.stored_sublist.trans hgrow
  refine ⟨?_, fun m existing documentHashes hget => ?_⟩
  · cases h with
    | idle n upload htasks hstored hwrites hreads hown hunread => rwa [hstored]
    | read n documentHashes ok hget htasks hstored hwrites hreads => rwa [hstored]
    | wrote n existing documentHashes ok hget htasks hstored hwrites hreads =>
        rw [hstored]
        cases ok with
        | true =>
            rw [uploaded_snoc, recorded_of_writes hwrites]
            exact (hinv.read_sublist n existing documentHashes hget).append (List.Sublist.refl _)
        | false => exact hkept
  · rcases h.writing_cases hget with hbefore | hread
    · exact (hinv.read_sublist m existing documentHashes hbefore).trans hgrow
    · exact hread.trans hkept

/-- The invariant holds after every run. -/
theorem listInvariant_run (gateway : String) (s : Redis) (id : Nat)
    (schedule : List UploadAction) :
    ListInvariant s id ((program gateway).run s schedule) ((program gateway).log s schedule) := by
  refine (program gateway).machine.invariant (P := ListInvariant s id) ?_ ?_ schedule
  · refine ⟨?_, fun n existing documentHashes hget => ?_⟩
    · rw [uploaded_nil]
      exact List.Sublist.refl _
    · cases hget
  · exact fun l e hfires hinv => hinv.step (uploadStep_of_fires hfires id)

/-- However uploads interleave, and whichever of their accesses fail: the list of a
project is some of what was there and of what its uploads returned, in order, and it
was all of that throughout exactly if every upload wrote in turn. -/
theorem documents_kept (gateway : String) (s : Redis) (id : Nat) (schedule : List UploadAction) :
    (stored ((program gateway).run s schedule).shared id).Sublist
        (uploaded s id ((program gateway).log s schedule)) ∧
      ((∀ pre, pre <+: schedule → stored ((program gateway).run s pre).shared id =
          uploaded s id ((program gateway).log s pre)) ↔
        ∀ l e, l ++ [e] <+: (program gateway).log s schedule → InTurn s id l e) := by
  have hinit : stored (Pool.initial s : UploadPool).shared id = uploaded s id [] ∧
      ∀ m, Agrees s id m [] ((Pool.initial s : UploadPool).tasks.get m) :=
    ⟨uploaded_nil.symm, fun _ => agrees_initial⟩
  have hiff := (program gateway).machine.holds_iff (I := fun _ _ => True)
    (P := fun p l => stored p.shared id = uploaded s id l ∧
      ∀ m, Agrees s id m l (p.tasks.get m))
    (C := InTurn s id) (fun _ => trivial) hinit ?_ schedule
  · refine ⟨(listInvariant_run gateway s id schedule).stored_sublist, ?_, ?_⟩
    · intro hkept
      refine hiff.mp fun pre hpre => ⟨hkept pre hpre, agrees_run pre ?_⟩
      exact fun pre' hpre' => hkept pre' (hpre'.trans hpre)
    · intro hturn pre hpre
      exact (hiff.mpr hturn pre hpre).1
  · intro l e hfires _ hP
    have hstep := uploadStep_of_fires hfires id
    rw [← hstep.kept_iff hP.1 hP.2]
    exact and_iff_left (hstep.agrees hP.1 hP.2)

/-- Two uploads that read before either has written: the first hash is gone. -/
example : stored ((program "").run ∅ [.start 0 (7, [⟨[], "a.pdf", none⟩]),
      .start 1 (7, [⟨[], "b.pdf", none⟩]), .resume 0 (.pinned "a"), .resume 1 (.pinned "b"),
      .resume 0 (.redis true), .resume 1 (.redis true), .resume 0 (.redis true),
      .resume 1 (.redis true)]).shared 7 = ["b"] := by decide

end EcoMint.Documents

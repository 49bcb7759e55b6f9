import BookHub.BookService.Issued

/-!
# What the events say about the table

Every event carries a row of the table, and the flag of a row is set before its `book.deleted` event
goes out and never reset. So a consumer that has seen a `book.deleted` event knows what every later
snapshot says of that book.
-/

namespace BookHub.BookService

def HasRow (s : Store) (id : Nat) : Prop := ∃ row ∈ s.books.rows, row.id = id

def HasDeletedRow (s : Store) (id : Nat) : Prop :=
  ∃ row ∈ s.books.rows, row.id = id ∧ row.isDeleted = true

/-- Rows have distinct keys, so the flag of one says that all rows of its key are deleted. -/
theorem HasDeletedRow.isDeleted {s : Store} {row : Book} (h : HasDeletedRow s row.id)
    (hrow : row ∈ s.books.rows) : row.isDeleted = true := by
  obtain ⟨row', hrow', hid, hdeleted⟩ := h
  rwa [← Table.mem_rows_unique hrow' hrow hid]

theorem hasRow_exec {s : Store} {id : Nat} (h : HasRow s id) (op : BookOp) (env : BookEnv) :
    HasRow (exec s op env).2 id := by
  obtain ⟨row, hrow, hid⟩ := h
  rcases exec_books s op env with hsame | ⟨_, _, _, -, hinsert⟩ | ⟨deleted, -, hmodify⟩
  · exact ⟨row, hsame ▸ hrow, hid⟩
  · refine ⟨row, ?_, hid⟩
    rw [hinsert]
    exact Table.mem_insert.mpr (.inl hrow)
  · by_cases heq : row.id = deleted
    · refine ⟨row.delete, ?_, hid⟩
      rw [hmodify]
      exact Table.mem_modify.mpr (.inr ⟨row, hrow, heq, rfl⟩)
    · refine ⟨row, ?_, hid⟩
      rw [hmodify]
      exact Table.mem_modify.mpr (.inl ⟨hrow, heq⟩)

theorem hasDeletedRow_exec {s : Store} {id : Nat} (h : HasDeletedRow s id) (op : BookOp)
    (env : BookEnv) : HasDeletedRow (exec s op env).2 id := by
  obtain ⟨row, hrow, hid, hdeleted⟩ := h
  rcases exec_books s op env with hsame | ⟨_, _, _, -, hinsert⟩ | ⟨deleted, -, hmodify⟩
  · exact ⟨row, hsame ▸ hrow, hid, hdeleted⟩
  · refine ⟨row, ?_, hid, hdeleted⟩
    rw [hinsert]
    exact Table.mem_insert.mpr (.inl hrow)
  · by_cases heq : row.id = deleted
    · refine ⟨row.delete, ?_, hid, rfl⟩
      rw [hmodify]
      exact Table.mem_modify.mpr (.inr ⟨row, hrow, heq, rfl⟩)
    · refine ⟨row, ?_, hid, hdeleted⟩
      rw [hmodify]
      exact Table.mem_modify.mpr (.inl ⟨hrow, heq⟩)

/-- A row that is not deleted after an operation was there before it, not deleted, or is the one that
the operation has committed. -/
theorem live_exec {s : Store} {op : BookOp} {env : BookEnv} {row : Book}
    (hrow : row ∈ (exec s op env).2.books.rows) (hlive : row.isDeleted = false) :
    row ∈ s.books.rows ∨ ∃ title author, op = .commitNew title author ∧
      (exec s (.commitNew title author) env).1 = .ok row.id := by
  rcases exec_books s op env with hsame | ⟨title, author, hroom, rfl, hinsert⟩ | ⟨id, -, hmodify⟩
  · exact .inl (hsame ▸ hrow)
  · rw [hinsert] at hrow
    rcases Table.mem_insert.mp hrow with hold | rfl
    · exact .inl hold
    · rcases exec_commitNew s title author env with herr | ⟨_, hok⟩
      · rw [herr] at hinsert
        have hnext := congrArg Table.nextId hinsert
        simp [Table.insert] at hnext
      · exact .inr ⟨title, author, rfl, congrArg Prod.fst hok⟩
  · rw [hmodify] at hrow
    rcases Table.mem_modify.mp hrow with ⟨hold, -⟩ | ⟨old, -, -, rfl⟩
    · exact .inl hold
    · cases hlive

/-- The rows that a thread has read. -/
def HasRead (t : BookThread) (row : Book) : Prop :=
  (∃ id, ⟨.refresh id, .ok row⟩ ∈ t.trace) ∨ ∃ id, ⟨.get id, .ok (some row)⟩ ∈ t.trace

structure EventInv (p : BookPool) : Prop where
  justified : Justified p
  read : ∀ t ∈ p.threads, ∀ row, HasRead t row → HasRow p.store row.id
  marked : ∀ t ∈ p.threads, ∀ id, ⟨.commitDeleted id, .ok ()⟩ ∈ t.trace → HasDeletedRow p.store id
  announced : ∀ msg ∈ p.store.published, ∃ key row, msg = announcement key row ∧
    HasRow p.store row.id ∧ (key = "book.deleted" → HasDeletedRow p.store row.id)

theorem eventInv_start (books : BooksTable) : EventInv (Service.start ⟨books, []⟩) where
  justified := Service.justified_start _
  read := by simp [Service.start]
  marked := by simp [Service.start]
  announced := by simp [Service.start]

theorem exec_refresh_ok {s : Store} {id : Nat} {env : BookEnv} {row : Book}
    (h : (exec s (.refresh id) env).1 = .ok row) : row ∈ s.books.rows := by
  simp only [exec] at h
  split at h
  · cases h
  · split at h
    · cases h
    · rename_i found hfind
      cases h
      exact (Table.find?_eq_some.mp hfind).1

theorem exec_commitDeleted_ok {s : Store} {id : Nat} {env : BookEnv} (hrow : HasRow s id)
    (h : (exec s (.commitDeleted id) env).1 = .ok ()) :
    HasDeletedRow (exec s (.commitDeleted id) env).2 id := by
  obtain ⟨row, hmem, hid⟩ := hrow
  simp only [exec] at h ⊢
  split at h
  · cases h
  · rename_i hraises
    have hmarked : row.delete ∈ (s.books.modify id Book.delete Book.id_delete).rows :=
      Table.mem_modify.mpr (.inr ⟨row, hmem, hid, rfl⟩)
    rw [if_neg hraises]
    exact ⟨row.delete, hmarked, hid, rfl⟩

theorem eventInv_arrive {p : BookPool} (h : EventInv p) (request : BookRequest)
    (hjust : Justified ⟨p.store, p.threads ++ [service.spawn request]⟩) :
    EventInv ⟨p.store, p.threads ++ [service.spawn request]⟩ := by
  refine ⟨hjust, fun t ht row hread => ?_, fun t ht id hmarked => ?_, h.announced⟩
  · rcases List.mem_append.mp ht with ht | ht
    · exact h.read t ht row hread
    · rw [List.mem_singleton.mp ht] at hread
      rcases hread with ⟨_, hread⟩ | ⟨_, hread⟩ <;> cases hread
  · rcases List.mem_append.mp ht with ht | ht
    · exact h.marked t ht id hmarked
    · rw [List.mem_singleton.mp ht] at hmarked
      cases hmarked

/-- The row that a thread has read is still there after its own step. -/
theorem hasRow_of_hasRead_advance {p : BookPool} (h : EventInv p) {t : BookThread} (ht : t ∈ p.threads)
    {op : BookOp} {env : BookEnv}
    {resume : Except Failure (bookSig.Answer op) → BookM BookResponse} {row : Book}
    (hread : HasRead (Service.advance t op resume (exec p.store op env).1) row) :
    HasRow (exec p.store op env).2 row.id := by
  rcases hread with ⟨id, hread⟩ | ⟨id, hread⟩
  · rcases List.mem_append.mp hread with hold | hnew
    · exact hasRow_exec (h.read t ht row (.inl ⟨id, hold⟩)) op env
    · obtain ⟨rfl, hanswer⟩ := Sigma.mk.inj (List.mem_singleton.mp hnew)
      exact hasRow_exec ⟨row, exec_refresh_ok (eq_of_heq hanswer).symm, rfl⟩ _ env
  · rcases List.mem_append.mp hread with hold | hnew
    · exact hasRow_exec (h.read t ht row (.inr ⟨id, hold⟩)) op env
    · obtain ⟨rfl, hanswer⟩ := Sigma.mk.inj (List.mem_singleton.mp hnew)
      exact hasRow_exec ⟨row, (exec_get_some (eq_of_heq hanswer).symm).1, rfl⟩ _ env

/-- Before it commits the flag of a row, a thread has read the row. -/
theorem Issued.commitDeleted_inv {t : BookThread} {id : Nat} (h : Issued t.trace (.commitDeleted id)) :
    ∃ row, HasRead t row ∧ row.id = id := by
  obtain ⟨request, trace, code⟩ := t
  cases h with
  | commitDeleted bookId item =>
      exact ⟨item, .inr ⟨bookId, List.mem_singleton_self _⟩, rfl⟩

/-- A message that a thread publishes carries a row that it has read, and has marked if the message
says so. -/
theorem Issued.publish_inv {t : BookThread} {op : BookOp} (h : Issued t.trace op) {msg : Message}
    (hmsg : msg ∈ op.messages) : ∃ key read row, msg = announcement key row ∧ HasRead t read ∧
      row.id = read.id ∧ (key = "book.deleted" → ⟨.commitDeleted row.id, .ok ()⟩ ∈ t.trace) := by
  obtain ⟨request, trace, code⟩ := t
  cases h with
  | announceCreated title author row =>
      refine ⟨"book.created", row, row, List.mem_singleton.mp hmsg, .inl ⟨row.id, ?_⟩, rfl, ?_⟩
      · simp
      · intro hkey
        simp at hkey
  | announceDeleted bookId item =>
      refine ⟨"book.deleted", item, item.delete, List.mem_singleton.mp hmsg, .inr ⟨bookId, ?_⟩, rfl, ?_⟩
      · simp
      · simp
  | _ => simp [BookOp.messages] at hmsg

theorem eventInv_resume {p : BookPool} (h : EventInv p) {index : Nat} {env : BookEnv}
    {t : BookThread} {op : BookOp} {resume : Except Failure (bookSig.Answer op) → BookM BookResponse}
    (ht : p.threads[index]? = some t) (hcode : t.code = .await op resume)
    {t' : BookThread} (ht' : t' = Service.advance t op resume (exec p.store op env).1)
    (hjust : Justified ⟨(exec p.store op env).2, p.threads.set index t'⟩) :
    EventInv ⟨(exec p.store op env).2, p.threads.set index t'⟩ := by
  have hmem := List.mem_of_getElem? ht
  have hissued := h.justified.issued_of_await hmem hcode
  refine ⟨hjust, fun u hu row hread => ?_, fun u hu id hmarked => ?_, fun msg hmsg => ?_⟩
  · rcases List.mem_or_eq_of_mem_set hu with hold | rfl
    · exact hasRow_exec (h.read u hold row hread) op env
    · rw [ht'] at hread
      exact hasRow_of_hasRead_advance h hmem hread
  · rcases List.mem_or_eq_of_mem_set hu with hold | rfl
    · exact hasDeletedRow_exec (h.marked u hold id hmarked) op env
    · rw [ht'] at hmarked
      rcases List.mem_append.mp hmarked with hold | hnew
      · exact hasDeletedRow_exec (h.marked t hmem id hold) op env
      · obtain ⟨rfl, hanswer⟩ := Sigma.mk.inj (List.mem_singleton.mp hnew)
        obtain ⟨row, hread, rfl⟩ := hissued.commitDeleted_inv
        exact exec_commitDeleted_ok (h.read t hmem row hread) (eq_of_heq hanswer).symm
  · rcases mem_published_exec hmsg with hold | hnew
    · obtain ⟨key, row, hmsgEq, hrow, hdeleted⟩ := h.announced msg hold
      exact ⟨key, row, hmsgEq, hasRow_exec hrow op env,
        fun hkey => hasDeletedRow_exec (hdeleted hkey) op env⟩
    · obtain ⟨key, read, row, hmsgEq, hread, hid, hmarked⟩ := hissued.publish_inv hnew
      refine ⟨key, row, hmsgEq, ?_, fun hkey => ?_⟩
      · rw [hid]
        exact hasRow_exec (h.read t hmem read hread) op env
      · exact hasDeletedRow_exec (h.marked t hmem row.id (hmarked hkey)) op env

theorem eventInv_step (p : BookPool) (move : BookMove) (p' : BookPool) (h : EventInv p)
    (hstep : service.machine.step p move = some p') : EventInv p' := by
  have hjust := justified_step p move p' h.justified hstep
  cases move with
  | arrive request =>
      obtain ⟨-, rfl⟩ := service.step_arrive hstep
      exact eventInv_arrive h request hjust
  | resume index env =>
      obtain ⟨t, op, resume, ht, hcode, rfl⟩ := service.step_resume hstep
      exact eventInv_resume h ht hcode rfl hjust

/-- The stream only grows. -/
theorem published_step {p p' : BookPool} {move : BookMove}
    (hstep : service.machine.step p move = some p') :
    ∃ new, p'.store.published = p.store.published ++ new := by
  cases move with
  | arrive request =>
      obtain ⟨-, rfl⟩ := service.step_arrive hstep
      exact ⟨[], (List.append_nil _).symm⟩
  | resume index env =>
      obtain ⟨t, op, resume, -, -, rfl⟩ := service.step_resume hstep
      rcases exec_published p.store op env with hsame | happend
      · exact ⟨[], by rw [List.append_nil]; exact hsame⟩
      · exact ⟨op.messages, happend⟩

end BookHub.BookService

import LinuxDriver.Ledger
import LinuxDriver.Sdio.Cis

/-!
# The life of an SDIO function

A function is made by `sdio_init_func`, shown to the drivers by `sdio_add_func`, hidden again by
`sdio_remove_func`, and freed by whoever drops the last reference to it. Its tuples are a list whose
tail are those of the card, and so it holds a reference to the card, which keeps them.

The ledger of a life is about the function, its buffer and the tuples, and the references to the
card are counted beside it. The strings of a function are not in it.

## Main definitions

* `TuplePtr`, `FuncRes`: pointers to tuples, and what is allocated for a function.
* `FuncEnv`: a card, and what the environment decides about the life of one of its functions.
* `sdioInitFunc`, `sdioAddFunc`, `sdioRemoveFunc`, `sdioReleaseFunc`: the functions of the source.
* `funcLife`: a whole life.

## Main results

* `cisTuples_get`: the pointers are to the tuples that the CIS functions leave.
* `funcLife_balanced_iff`: when a life frees what it allocates and drops what it holds.
-/

namespace LinuxDriver.Sdio

/-! ### Tuples -/

/-- A pointer to a tuple: one that was allocated for the function, or one of the card. -/
inductive TuplePtr
  | own (i : ℕ)
  | common (i : ℕ)
  deriving DecidableEq

/-- What is allocated for a function. -/
inductive FuncRes
  | func
  | tmpbuf
  | tuple (t : TuplePtr)
  deriving DecidableEq

/-- The list `card->tuples`. -/
def commonTuples (card : CardCis) : List TuplePtr :=
  (List.range card.tuples.length).map .common

/-- The list that `sdio_read_cis` leaves in `func->tuples`, as pointers: how many tuples it has
queued, and the list. -/
def cisTuples (card : CisCard) (alloc : CisAlloc) (s : CisState) : ℕ × List TuplePtr :=
  match readCisPtr card s.fn with
  | .error _ => (0, [])
  | .ok ptr =>
    if s.tuples ≠ [] then (0, [])
    else
      match cisLoop card alloc ptr s [] with
      | none => (0, [])
      | some r =>
        (r.queued.length, (List.range r.queued.length).map .own ++
          if r.returned ∨ s.func.isNone then [] else commonTuples s.card)

/-- The loop of `sdio_free_func_cis`: it reads the link of a tuple and frees the tuple, until it
comes to the first one of the card. -/
def freeTuples (card : CardCis) : List TuplePtr → List (Event FuncRes)
  | [] => []
  | t :: ts =>
    if (commonTuples card).head? = some t then []
    else .on .use (.tuple t) :: .on .release (.tuple t) :: freeTuples card ts

/-! ### The functions -/

/-- A card: its registers, its quirks and its common CIS, and what the environment decides about the
life of a function. `device_add` takes `parentRefs` references to the card, which `device_del`
drops, and others hold `holders` references to the function when it is removed. -/
structure FuncEnv where
  regs : CisCard
  nonstdSdio : Bool
  nonstdFuncInterface : Bool
  cis : CardCis
  allocFunc : Bool
  allocTmpbuf : Bool
  allocCis : CisAlloc
  addRet : ℤ
  parentRefs : ℕ
  holders : ℕ

/-- `sdio_func`, with the count of the references to its device. -/
structure SdioFuncObj where
  cls : UInt8
  cis : FuncCis
  tuples : List TuplePtr
  present : Bool
  refs : ℕ

/-- The ledger, the count of the references to `card->dev`, and the function while it is
allocated. -/
structure FuncLife where
  log : List (Event FuncRes)
  cardRefs : ℤ
  func : Option SdioFuncObj

def FuncLife.record (st : FuncLife) (events : List (Event FuncRes)) : FuncLife :=
  { st with log := st.log ++ events }

section Functions

variable (env : FuncEnv)

/-- The CIS of a function as `kzalloc` leaves it, with its number. -/
def FuncCis.zeroed (fn : ℕ) : FuncCis where
  num := UInt8.ofNat fn
  numInfo := 0
  info := none
  vendor := 0
  device := 0
  maxBlksize := 0
  enableTimeout := 0
  tuples := []

/-- `sdio_alloc_func` -/
def sdioAllocFunc (st : FuncLife) : FuncLife × Except ℤ SdioFuncObj :=
  if !env.allocFunc then (st, .error (-enomem))
  else
    let st := st.record [.on .acquire .func]
    if !env.allocTmpbuf then (st.record [.on .release .func], .error (-enomem))
    else (st.record [.on .acquire .tmpbuf], .ok ⟨0, .zeroed 0, [], false, 1⟩)

def sdioFbrStdIf : ℕ := 0x00
def sdioFbrStdIfExt : ℕ := 0x01

/-- `sdio_read_fbr`: the value returned, and the class of the function. -/
def sdioReadFbr (fn : ℕ) : ℤ × UInt8 :=
  if env.nonstdFuncInterface then (0, 0)
  else
    match mmcIoRwDirect env.regs (sdioFbrBase fn + sdioFbrStdIf) with
    | .error e => (e, 0)
    | .ok data =>
      let data := data &&& 0x0f
      if data = 0x0f then
        match mmcIoRwDirect env.regs (sdioFbrBase fn + sdioFbrStdIfExt) with
        | .error e => (e, 0)
        | .ok data => (0, data)
      else (0, data)

/-- `sdio_free_func_cis` -/
def sdioFreeFuncCis (func : SdioFuncObj) (st : FuncLife) : FuncLife :=
  let st := st.record (freeTuples env.cis func.tuples)
  { st with cardRefs := st.cardRefs - 1 }

/-- `sdio_release_func` -/
def sdioReleaseFunc (func : SdioFuncObj) (st : FuncLife) : FuncLife :=
  let st := sdioFreeFuncCis env func st
  { st.record [.on .release .tmpbuf, .on .release .func] with func := none }

/-- `get_device(&func->dev)` -/
def getFunc (st : FuncLife) : FuncLife :=
  match st.func with
  | none => st.record [.on .use .func]
  | some func => { st with func := some { func with refs := func.refs + 1 } }

/-- `put_device(&func->dev)` -/
def putFunc (st : FuncLife) : FuncLife :=
  match st.func with
  | none => st.record [.on .use .func]
  | some func =>
    if func.refs = 1 then sdioReleaseFunc env func st
    else { st with func := some { func with refs := func.refs - 1 } }

/-- `sdio_add_func` -/
def sdioAddFunc (st : FuncLife) : FuncLife × ℤ :=
  match st.func with
  | none => (st.record [.on .use .func], 0)
  | some func =>
    if env.addRet = 0 then
      ({ st with
        cardRefs := st.cardRefs + env.parentRefs
        func := some { func with present := true } }, 0)
    else (st, env.addRet)

/-- `sdio_remove_func` -/
def sdioRemoveFunc (st : FuncLife) : FuncLife :=
  match st.func with
  | none => st.record [.on .use .func]
  | some func =>
    if !func.present then st
    else putFunc env { st with cardRefs := st.cardRefs - env.parentRefs }

/-- `sdio_read_func_cis`, with the tuples and the reference to the card. -/
def readFuncCis (func : SdioFuncObj) (st : FuncLife) : Option (FuncLife × ℤ) :=
  let s : CisState := ⟨env.cis, some func.cis⟩
  (sdioReadFuncCis env.regs env.allocCis s).map fun r =>
    let ptrs := cisTuples env.regs env.allocCis s
    let st := st.record ((List.range ptrs.1).map fun i => .on .acquire (.tuple (.own i)))
    let func := { func with cis := r.1.func.getD func.cis, tuples := ptrs.2 }
    if r.2 ≠ 0 then ({ st with func := some func }, r.2)
    else ({ st with cardRefs := st.cardRefs + 1, func := some func }, 0)

/-- `sdio_init_func`. It ends with `none` if the CIS functions do. -/
def sdioInitFunc (fn : ℕ) (st : FuncLife) : Option (FuncLife × ℤ) :=
  if fn > 7 then some (st, -einval)
  else
    match sdioAllocFunc env st with
    | (st, .error e) => some (st, e)
    | (st, .ok func) =>
      let func := { func with cis := { func.cis with num := UInt8.ofNat fn } }
      if !env.nonstdSdio then
        let fbr := sdioReadFbr env fn
        let func := { func with cls := fbr.2 }
        if fbr.1 ≠ 0 then some (sdioRemoveFunc env { st with func := some func }, fbr.1)
        else
          (readFuncCis env func st).map fun r =>
            if r.2 ≠ 0 then (sdioRemoveFunc env r.1, r.2) else r
      else
        let cis := { func.cis with
          vendor := env.cis.vendor, device := env.cis.device, maxBlksize := env.cis.blksize }
        some ({ st with func := some { func with cis := cis } }, 0)

/-- The life of a function: that of a failed `sdio_init_func` ends with it. After a successful one
the function is added, others take references to it, it is removed, and the others drop their
references. -/
def funcLife (fn : ℕ) (refs : ℤ) : Option (FuncLife × ℤ) :=
  (sdioInitFunc env fn ⟨[], refs, none⟩).map fun r =>
    if r.2 ≠ 0 then r
    else
      let st := (sdioAddFunc env r.1).1
      let st := getFunc^[env.holders] st
      let st := sdioRemoveFunc env st
      ((putFunc env)^[env.holders] st, 0)

end Functions

/-- A life is balanced if everything that it allocates is freed once and not used after that, the
card has as many references as before, and the tuples of the card are left alone. -/
structure LifeBalanced (refs : ℤ) (st : FuncLife) : Prop where
  ledger : BalancedLedger st.log
  cardRefs : st.cardRefs = refs
  common : ∀ op i, .on op (.tuple (.common i)) ∉ st.log

/-- The card is a standard one, its registers and the CIS of the function can be read, and the
function can be added. -/
structure Undisturbed (env : FuncEnv) (fn : ℕ) : Prop where
  standard : env.nonstdSdio = false
  fbr : (sdioReadFbr env fn).1 = 0
  cis : ∃ s, sdioReadCis env.regs env.allocCis ⟨env.cis, some (.zeroed fn)⟩ = some (s, 0)
  add : env.addRet = 0

/-! ### The list of the tuples -/

/-- The tuple that a pointer is to. -/
def TuplePtr.get (queued common : List Tuple) : TuplePtr → Option Tuple
  | .own i => queued[i]?
  | .common i => common[i]?

private theorem filterMap_getElem?_range {α : Type*} (l : List α) :
    ((List.range l.length).filterMap fun i => l[i]?) = l := by
  induction l with
  | nil => rfl
  | cons a l ih =>
    rw [List.length_cons, List.range_succ_eq_map, List.filterMap_cons, List.filterMap_map]
    simpa using ih

/-- **The list of a function.** The pointers in it are to the tuples that `sdio_read_cis` leaves,
its own ones being the first. -/
theorem cisTuples_get {card : CisCard} {alloc : CisAlloc} {s s' : CisState} {ret : ℤ}
    (hempty : s.tuples = []) (h : sdioReadCis card alloc s = some (s', ret)) :
    ∃ queued : List Tuple, queued.length = (cisTuples card alloc s).1 ∧
      (cisTuples card alloc s).2.filterMap (TuplePtr.get queued s.card.tuples) = s'.tuples := by
  unfold sdioReadCis at h
  unfold cisTuples
  cases hptr : readCisPtr card s.fn with
  | error e =>
    rw [hptr] at h
    obtain ⟨rfl, -⟩ := Prod.mk.inj (Option.some.inj h)
    exact ⟨[], rfl, hempty.symm⟩
  | ok ptr =>
    obtain ⟨r, hr, hsame, -⟩ := cisLoop_eq_some card alloc ptr s []
    have hnone : ¬s.tuples ≠ [] := not_not.mpr hempty
    rw [hptr] at h
    simp only [if_neg hnone, hr, Option.map_some, Option.some.injEq] at h ⊢
    refine ⟨r.queued, rfl, ?_⟩
    have hown : ((List.range r.queued.length).map TuplePtr.own).filterMap
        (TuplePtr.get r.queued s.card.tuples) = r.queued := by
      rw [List.filterMap_map]
      exact filterMap_getElem?_range r.queued
    have hcommon : (commonTuples s.card).filterMap (TuplePtr.get r.queued s.card.tuples) =
        s.card.tuples := by
      rw [commonTuples, List.filterMap_map]
      exact filterMap_getElem?_range s.card.tuples
    rw [List.filterMap_append, hown]
    split_ifs at h ⊢ with hleft
    · obtain ⟨rfl, -⟩ := Prod.mk.inj h
      rw [CisState.setTuples_tuples, List.filterMap_nil, List.append_nil]
    · obtain ⟨rfl, -⟩ := Prod.mk.inj h
      rw [CisState.setTuples_tuples, hcommon, hsame.common]

/-- The list starts with the tuples of the function, behind which there are those of the card or
none. -/
theorem cisTuples_eq (card : CisCard) (alloc : CisAlloc) (s : CisState) :
    ∃ tail, (tail = [] ∨ tail = commonTuples s.card) ∧
      (cisTuples card alloc s).2 = (List.range (cisTuples card alloc s).1).map .own ++ tail := by
  unfold cisTuples
  split
  · exact ⟨[], .inl rfl, rfl⟩
  · split_ifs
    · exact ⟨[], .inl rfl, rfl⟩
    · split
      · exact ⟨[], .inl rfl, rfl⟩
      · split_ifs
        · exact ⟨[], .inl rfl, rfl⟩
        · exact ⟨_, .inr rfl, rfl⟩

theorem freeTuples_commonTuples (card : CardCis) : freeTuples card (commonTuples card) = [] := by
  cases h : commonTuples card with
  | nil => rfl
  | cons t ts =>
    rw [freeTuples, h]
    exact if_pos rfl

/-- The loop of `sdio_free_func_cis` frees the tuples of the function and stops at those of the
card. -/
theorem freeTuples_append (card : CardCis) (own : List ℕ) {tail : List TuplePtr}
    (htail : tail = [] ∨ tail = commonTuples card) :
    freeTuples card (own.map .own ++ tail) = own.flatMap fun i =>
      [.on .use (.tuple (.own i)), .on .release (.tuple (.own i))] := by
  induction own with
  | nil =>
    rcases htail with rfl | rfl
    · rfl
    · exact freeTuples_commonTuples card
  | cons i own ih =>
    have hne : (commonTuples card).head? ≠ some (.own i) := by
      intro h
      obtain ⟨j, -, hj⟩ := List.mem_map.mp (List.mem_of_head? h)
      cases hj
    rw [List.map_cons, List.cons_append, freeTuples, if_neg hne, ih]
    rfl

/-! ### From the addition to the last reference -/

section Life

variable {env : FuncEnv} {st : FuncLife} {func : SdioFuncObj}

theorem getFunc_iterate (hfunc : st.func = some func) (n : ℕ) :
    getFunc^[n] st = { st with func := some { func with refs := func.refs + n } } := by
  induction n with
  | zero => simp [← hfunc]
  | succ n ih =>
    rw [Function.iterate_succ_apply', ih]
    rfl

/-- Fewer references than there are can be dropped, and the function stays. -/
theorem putFunc_iterate (hfunc : st.func = some func) {n : ℕ} (hn : n < func.refs) :
    (putFunc env)^[n] st = { st with func := some { func with refs := func.refs - n } } := by
  induction n with
  | zero => simp [← hfunc]
  | succ n ih =>
    rw [Function.iterate_succ_apply', ih (by omega), putFunc]
    simp only
    rw [if_neg (by omega), Nat.sub_sub]

theorem sdioRemoveFunc_of_not_present (hfunc : st.func = some func)
    (hpresent : func.present = false) : sdioRemoveFunc env st = st := by
  simp [sdioRemoveFunc, hfunc, hpresent]

/-- What follows a successful `sdio_init_func` in the life of a function. -/
def lifeAfterInit (env : FuncEnv) (st : FuncLife) : FuncLife :=
  (putFunc env)^[env.holders] (sdioRemoveFunc env (getFunc^[env.holders] (sdioAddFunc env st).1))

/-- A function that was added is freed with its last reference. -/
theorem lifeAfterInit_of_added (hadd : env.addRet = 0) (hfunc : st.func = some func)
    (hrefs : func.refs = 1) :
    lifeAfterInit env st = ⟨st.log ++ freeTuples env.cis func.tuples ++
      [.on .release .tmpbuf, .on .release .func], st.cardRefs - 1, none⟩ := by
  have hadded : (sdioAddFunc env st).1 = { st with
      cardRefs := st.cardRefs + env.parentRefs
      func := some { func with present := true } } := by
    simp [sdioAddFunc, hfunc, hadd]
  have hremove : ∀ refs, sdioRemoveFunc env
      { st with
        cardRefs := st.cardRefs + env.parentRefs
        func := some { func with present := true, refs := refs } } =
      putFunc env { st with func := some { func with present := true, refs := refs } } := by
    simp [sdioRemoveFunc]
  rw [lifeAfterInit, hadded, getFunc_iterate rfl, hremove, ← Function.iterate_succ_apply,
    Function.iterate_succ_apply', putFunc_iterate rfl (by simp only; omega), putFunc]
  simp only
  rw [if_pos (by omega)]
  simp [sdioReleaseFunc, sdioFreeFuncCis, FuncLife.record]

/-- A function that could not be added stays where it is. -/
theorem lifeAfterInit_of_not_added (hadd : env.addRet ≠ 0) (hfunc : st.func = some func)
    (hpresent : func.present = false) (hrefs : func.refs = 1) : lifeAfterInit env st = st := by
  have hadded : (sdioAddFunc env st).1 = st := by simp [sdioAddFunc, hfunc, hadd]
  have hremove : sdioRemoveFunc env { st with
        func := some { func with refs := func.refs + env.holders } } =
      { st with func := some { func with refs := func.refs + env.holders } } :=
    sdioRemoveFunc_of_not_present rfl hpresent
  rw [lifeAfterInit, hadded, getFunc_iterate hfunc, hremove,
    putFunc_iterate rfl (by simp only; omega)]
  simp [← hfunc]

end Life

/-! ### The ends of `sdio_init_func` -/

/-- The allocations of a function with `n` tuples of its own. -/
def allocLog (n : ℕ) : List (Event FuncRes) :=
  [.on .acquire .func, .on .acquire .tmpbuf] ++
    (List.range n).flatMap fun i => [Op.acquire].map fun op => .on op (.tuple (.own i))

/-- The function and its buffer can be allocated. -/
def Allocates (env : FuncEnv) (fn : ℕ) : Prop :=
  fn ≤ 7 ∧ env.allocFunc = true ∧ env.allocTmpbuf = true

/-- The ends of `sdio_init_func`, from no function and `refs` references to the card. -/
inductive InitEnd (env : FuncEnv) (fn : ℕ) (refs : ℤ) : FuncLife → ℤ → Prop
  | unallocated {log ret} (halloc : ¬Allocates env fn) (hret : ret ≠ 0)
      (hlog : log = [] ∨ log = [.on .acquire .func, .on .release .func]) :
      InitEnd env fn refs ⟨log, refs, none⟩ ret
  | failed {n func ret} (halloc : Allocates env fn) (hdisturbed : ¬Undisturbed env fn)
      (hret : ret ≠ 0) : InitEnd env fn refs ⟨allocLog n, refs, some func⟩ ret
  | nonstd {func} (halloc : Allocates env fn) (hnonstd : env.nonstdSdio = true)
      (hpresent : func.present = false) (hrefs : func.refs = 1) (htuples : func.tuples = []) :
      InitEnd env fn refs ⟨allocLog 0, refs, some func⟩ 0
  | initialised {n func tail} (halloc : Allocates env fn)
      (hadd : env.addRet = 0 → Undisturbed env fn) (hpresent : func.present = false)
      (hrefs : func.refs = 1) (htail : tail = [] ∨ tail = commonTuples env.cis)
      (htuples : func.tuples = (List.range n).map .own ++ tail) :
      InitEnd env fn refs ⟨allocLog n, refs + 1, some func⟩ 0

theorem allocLog_eq (n : ℕ) :
    allocLog n = [.on .acquire .func, .on .acquire .tmpbuf] ++
      (List.range n).map fun i => .on .acquire (.tuple (.own i)) := by
  rw [allocLog, List.map_eq_flatMap]
  rfl

/-- The state after the allocations of `sdio_alloc_func`. -/
theorem sdioAllocFunc_cases (env : FuncEnv) (fn : ℕ) (refs : ℤ) (hfn : fn ≤ 7) :
    (¬Allocates env fn ∧ ∃ log, sdioAllocFunc env ⟨[], refs, none⟩ =
        (⟨log, refs, none⟩, .error (-enomem)) ∧
        (log = [] ∨ log = [.on .acquire .func, .on .release .func])) ∨
      (Allocates env fn ∧ sdioAllocFunc env ⟨[], refs, none⟩ =
        (⟨allocLog 0, refs, none⟩, .ok ⟨0, .zeroed 0, [], false, 1⟩)) := by
  by_cases hfunc : env.allocFunc = true
  · by_cases hbuf : env.allocTmpbuf = true
    · refine .inr ⟨⟨hfn, hfunc, hbuf⟩, ?_⟩
      simp [sdioAllocFunc, hfunc, hbuf, FuncLife.record, allocLog]
    · refine .inl ⟨fun h => hbuf h.2.2, _, ?_, .inr rfl⟩
      simp [sdioAllocFunc, hfunc, hbuf, FuncLife.record]
  · refine .inl ⟨fun h => hfunc h.2.1, _, ?_, .inl rfl⟩
    simp [sdioAllocFunc, hfunc]

/-- `sdio_read_func_cis` returns what `sdio_read_cis` returns. -/
theorem sdioReadFuncCis_eq {card : CisCard} {alloc : CisAlloc} {s s' : CisState} {ret : ℤ}
    (h : sdioReadCis card alloc s = some (s', ret)) :
    ∃ s'', sdioReadFuncCis card alloc s = some (s'', ret) := by
  rw [sdioReadFuncCis, h, Option.map_some]
  dsimp only
  split_ifs with hret
  · exact ⟨_, rfl⟩
  · rw [not_not.mp hret]
    exact ⟨_, rfl⟩

/-- **Initialising.** Once the function is allocated it stays so, whether or not the card can be
read. -/
theorem sdioInitFunc_end (env : FuncEnv) (fn : ℕ) (refs : ℤ) :
    ∃ st ret, sdioInitFunc env fn ⟨[], refs, none⟩ = some (st, ret) ∧
      InitEnd env fn refs st ret := by
  by_cases hfn : fn > 7
  · refine ⟨_, -einval, by rw [sdioInitFunc, if_pos hfn], .unallocated (fun h => ?_) (by decide)
      (.inl rfl)⟩
    exact absurd h.1 (by omega)
  rw [sdioInitFunc, if_neg hfn]
  rcases sdioAllocFunc_cases env fn refs (by omega) with ⟨halloc, log, heq, hlog⟩ | ⟨halloc, heq⟩
  · rw [heq]
    exact ⟨_, _, rfl, .unallocated halloc (by decide) hlog⟩
  rw [heq]
  dsimp only
  by_cases hstd : env.nonstdSdio = true
  · rw [if_neg (by simp [hstd])]
    exact ⟨_, _, rfl, .nonstd halloc hstd rfl rfl rfl⟩
  rw [if_pos (by simp [hstd])]
  by_cases hfbr : (sdioReadFbr env fn).1 ≠ 0
  · rw [if_pos hfbr, sdioRemoveFunc_of_not_present rfl rfl]
    exact ⟨_, _, rfl, .failed halloc (fun h => hfbr h.fbr) hfbr⟩
  rw [if_neg hfbr]
  obtain ⟨s', ret, hcis, -⟩ :=
    sdioReadCis_faithful env.regs env.allocCis ⟨env.cis, some (.zeroed fn)⟩
  obtain ⟨s'', hread⟩ := sdioReadFuncCis_eq hcis
  obtain ⟨tail, htail, htuples⟩ :=
    cisTuples_eq env.regs env.allocCis ⟨env.cis, some (.zeroed fn)⟩
  have hrecord : ∀ n, allocLog 0 ++ (List.range n).map (fun i =>
      Event.on .acquire (FuncRes.tuple (.own i))) = allocLog n := fun n => (allocLog_eq n).symm
  have hzeroed : ({ FuncCis.zeroed 0 with num := UInt8.ofNat fn } : FuncCis) = .zeroed fn := rfl
  simp only [hzeroed, readFuncCis, hread, Option.map_some, FuncLife.record, hrecord]
  by_cases hret : ret ≠ 0
  · rw [if_pos hret]
    dsimp only
    rw [if_pos hret, sdioRemoveFunc_of_not_present rfl rfl]
    refine ⟨_, _, rfl, .failed halloc (fun h => ?_) hret⟩
    obtain ⟨s₁, hs₁⟩ := h.cis
    rw [hcis] at hs₁
    exact hret (Prod.mk.inj (Option.some.inj hs₁)).2
  · rw [if_neg hret]
    dsimp only
    rw [if_neg (not_not.mpr rfl)]
    refine ⟨_, _, rfl, .initialised halloc (fun hadd => ?_) rfl rfl htail htuples⟩
    exact ⟨by simpa using hstd, not_not.mp hfbr, ⟨s', by rw [hcis, not_not.mp hret]⟩, hadd⟩

/-! ### Whole lives -/

theorem funcLife_of_init {env : FuncEnv} {fn : ℕ} {refs : ℤ} {st : FuncLife}
    (h : sdioInitFunc env fn ⟨[], refs, none⟩ = some (st, 0)) :
    funcLife env fn refs = some (lifeAfterInit env st, 0) := by
  rw [funcLife, h, Option.map_some]
  exact congrArg some (if_neg (not_not.mpr rfl))

/-- The ledger of a function that is made and freed. -/
def freedLog (n : ℕ) : List (Event FuncRes) :=
  allocLog n ++ ((List.range n).flatMap fun i =>
    [Op.use, Op.release].map fun op => .on op (.tuple (.own i))) ++
    [.on .release .tmpbuf, .on .release .func]

section Logs

variable (n : ℕ)

theorem mem_flatMap_own {ops : List Op} {e : Event FuncRes}
    (h : e ∈ (List.range n).flatMap fun i => ops.map fun op => .on op (.tuple (.own i))) :
    ∃ op i, e = .on op (.tuple (.own i)) := by
  obtain ⟨i, -, hi⟩ := List.mem_flatMap.mp h
  obtain ⟨op, -, rfl⟩ := List.mem_map.mp hi
  exact ⟨op, i, rfl⟩

/-- The operations on the tuples of a function are on nothing else. -/
theorem opsOn_flatMap_own {ops : List Op} {r : FuncRes} (hr : ∀ i, r ≠ .tuple (.own i)) :
    opsOn r ((List.range n).flatMap fun i => ops.map fun op => .on op (.tuple (.own i))) = [] := by
  refine opsOn_eq_nil fun op hop => ?_
  obtain ⟨op', i, heq⟩ := mem_flatMap_own n hop
  exact hr i (Event.on.inj heq).2

theorem opsOn_allocLog_func : opsOn .func (allocLog n) = [.acquire] := by
  rw [allocLog, opsOn_append, opsOn_flatMap_own n fun i h => by cases h]
  rfl

theorem freedLog_common (op : Op) (i : ℕ) : .on op (.tuple (.common i)) ∉ freedLog n := by
  simp [freedLog, allocLog]

/-- What is allocated for a function is freed once. -/
theorem balanced_freedLog : BalancedLedger (freedLog n) where
  deref := by simp [freedLog, allocLog]
  phase r := by
    have hinj : Function.Injective fun i => FuncRes.tuple (.own i) := by
      intro i j h
      simpa using h
    unfold phaseOf freedLog allocLog
    simp only [opsOn_append]
    cases r with
    | func =>
      have hr : ∀ i, FuncRes.func ≠ .tuple (.own i) := fun i h => by cases h
      simp only [opsOn_flatMap_own n hr]
      exact .inr rfl
    | tmpbuf =>
      have hr : ∀ i, FuncRes.tmpbuf ≠ .tuple (.own i) := fun i h => by cases h
      simp only [opsOn_flatMap_own n hr]
      exact .inr rfl
    | tuple t =>
      cases t with
      | own i =>
        rw [opsOn_flatMap_range hinj, opsOn_flatMap_range hinj]
        by_cases hi : i < n
        · rw [if_pos hi, if_pos hi]
          exact .inr rfl
        · rw [if_neg hi, if_neg hi]
          exact .inl rfl
      | common i =>
        have hr : ∀ j, FuncRes.tuple (.common i) ≠ .tuple (.own j) := fun j h => by cases h
        simp only [opsOn_flatMap_own n hr]
        exact .inl rfl

/-- A function without a buffer is freed at once. -/
theorem balanced_unallocated :
    BalancedLedger [Event.on .acquire FuncRes.func, .on .release .func] where
  deref := by decide
  phase r := by
    cases r with
    | func => exact .inr rfl
    | tmpbuf => exact .inl rfl
    | tuple t => exact .inl rfl

/-- A function that was allocated and never freed is leaked. -/
theorem not_balanced_allocLog : ¬BalancedLedger (allocLog n) := by
  intro h
  have hfunc := h.phase .func
  rw [phaseOf, opsOn_allocLog_func] at hfunc
  exact absurd hfunc (by decide)

end Logs

/-- **Exact balance.** The life of a function, up to the end of a failed `sdio_init_func` or to the
drop of the last reference after a successful one, is balanced exactly if nothing could be allocated
or nothing on the way disturbs it. -/
theorem funcLife_balanced_iff (env : FuncEnv) (fn : ℕ) (refs : ℤ) :
    ∃ st ret, funcLife env fn refs = some (st, ret) ∧
      (LifeBalanced refs st ↔ (Allocates env fn → Undisturbed env fn)) := by
  obtain ⟨st, ret, hinit, hend⟩ := sdioInitFunc_end env fn refs
  cases hend with
  | @unallocated log ret halloc hret hlog =>
    refine ⟨_, ret, by rw [funcLife, hinit, Option.map_some]; exact congrArg some (if_pos hret),
      iff_of_true ⟨?_, rfl, ?_⟩ fun h => absurd h halloc⟩
    · rcases hlog with rfl | rfl
      · exact .nil
      · exact balanced_unallocated
    · rcases hlog with rfl | rfl <;> simp
  | @failed n func ret halloc hdisturbed hret =>
    refine ⟨_, ret, by rw [funcLife, hinit, Option.map_some]; exact congrArg some (if_pos hret),
      iff_of_false (fun h => not_balanced_allocLog n h.ledger) fun h => hdisturbed (h halloc)⟩
  | @nonstd func halloc hnonstd hpresent hrefs htuples =>
    refine ⟨_, 0, funcLife_of_init hinit, iff_of_false (fun h => ?_) fun h => ?_⟩
    · by_cases hadd : env.addRet = 0
      · -- the reference that is dropped was never taken
        have hcard := h.cardRefs
        rw [lifeAfterInit_of_added hadd rfl hrefs] at hcard
        simp only at hcard
        omega
      · rw [lifeAfterInit_of_not_added hadd rfl hpresent hrefs] at h
        exact not_balanced_allocLog 0 h.ledger
    · have hstd := (h halloc).standard
      rw [hnonstd] at hstd
      cases hstd
  | @initialised n func tail halloc hundisturbed hpresent hrefs htail htuples =>
    refine ⟨_, 0, funcLife_of_init hinit, ?_⟩
    by_cases hadd : env.addRet = 0
    · refine iff_of_true ?_ fun _ => hundisturbed hadd
      have hlog : allocLog n ++ freeTuples env.cis func.tuples ++
          [.on .release .tmpbuf, .on .release .func] = freedLog n := by
        rw [htuples, freeTuples_append env.cis (List.range n) htail]
        rfl
      rw [lifeAfterInit_of_added hadd rfl hrefs]
      simp only [hlog]
      exact ⟨balanced_freedLog n, add_sub_cancel_right refs 1, freedLog_common n⟩
    · rw [lifeAfterInit_of_not_added hadd rfl hpresent hrefs]
      exact iff_of_false (fun h => not_balanced_allocLog n h.ledger)
        fun h => hadd (h halloc).add

/-- A card whose registers cannot be read, with an empty common CIS. -/
def deadCard (nonstdSdio : Bool) : FuncEnv where
  regs _ := .error ⟨-eio, by decide⟩
  nonstdSdio := nonstdSdio
  nonstdFuncInterface := false
  cis := ⟨0, 0, none, 0, 0, 0, 0, []⟩
  allocFunc := true
  allocTmpbuf := true
  allocCis := ⟨fun _ => true, fun _ => true⟩
  addRet := 0
  parentRefs := 1
  holders := 0

/-- A `sdio_init_func` that cannot read its function leaks it, and the life of a function of a
nonstandard card drops a reference to the card that was not taken. -/
theorem deadCard_not_balanced :
    ¬(∀ st ret, funcLife (deadCard false) 1 1 = some (st, ret) → LifeBalanced 1 st) ∧
      ¬∀ st ret, funcLife (deadCard true) 1 1 = some (st, ret) → LifeBalanced 1 st := by
  constructor
  · intro h
    have hledger := (h _ _ rfl).ledger.phase .func
    exact absurd hledger (by decide)
  · intro h
    have hcard := (h _ _ rfl).cardRefs
    exact absurd hcard (by decide)

end LinuxDriver.Sdio

import GaleLB.Common.Deferred
import GaleLB.LbNetwork.HealthStream
import GaleLB.Routing.Hashing
import GaleLB.Routing.Ring

/-!
# Loading the packet programs

The loader creates the collection of the embedded object, looks its two programs up, and
attaches one to the public and one to the private interface. The library for packet programs
and the kernel behind it are not modelled: they may answer every call in any way, so nothing
is said about whether they accept the embedded object.

The collection and the links are closed by deferred calls, and these are made when the loader
returns. So everything that was opened is closed again when a router has been created, also if
loading succeeds. If closing a link without an error detaches its program, then no program
stays attached, unless closing its link fails, which the loader does not notice.
-/

namespace GaleLB.Routing

open Deferred LbNetwork

/-- The parameters of the loader. -/
structure Xdp where
  pubNetInterface : String
  privNetInterface : String
  port : ℤ
deriving DecidableEq, Repr

/-- The name of the program of the public interface. -/
def dnatXDPProgName : String := "dnat_prog"

/-- The name of the program of the private interface. -/
def snatXDPProgName : String := "snat_prog"

/-- What the library hands out: specifications, collections, programs and links. -/
abbrev Handle := ℕ

/-- A collection with the programs that it has under their names. -/
structure Collection where
  handle : Handle
  programs : String → Option Handle

/-- The calls of the loader. -/
inductive LibraryCall where
  | removeMemlock
  | loadCollectionSpecFromReader
  | newCollection (spec : Handle)
  | interfaceByName (name : String)
  | attachXDP (program : Handle) (index : ℤ)
  | closeCollection (collection : Handle)
  | closeLink (link : Handle)
deriving DecidableEq, Repr

/-- What a call returns. -/
abbrev LibraryCall.Answer : LibraryCall → Type
  | .removeMemlock => Option GoError
  | .loadCollectionSpecFromReader => Except GoError Handle
  | .newCollection _ => Except GoError Collection
  | .interfaceByName _ => Except GoError ℤ
  | .attachXDP _ _ => Except GoError Handle
  | .closeCollection _ => Unit
  | .closeLink _ => Option GoError

/-- A call with what it returned. -/
abbrev LibraryEvent := Answered LibraryCall.Answer

/-- The closing call that a new collection or a new link owes. -/
def closingCall : LibraryEvent → Option LibraryCall
  | ⟨.newCollection _, .ok collection⟩ => some (.closeCollection collection.handle)
  | ⟨.attachXDP _ _, .ok link⟩ => some (.closeLink link)
  | _ => none

/-- The call closes a collection or a link. -/
def LibraryCall.isClosing : LibraryCall → Bool
  | .closeCollection _ | .closeLink _ => true
  | _ => false

/-- The call fails to close a link. -/
def failsToClose : LibraryEvent → Bool
  | ⟨.closeLink _, some _⟩ => true
  | _ => false

/-- What has to be closed, and by which calls. -/
def loaderDiscipline : Discipline LibraryCall.Answer := ⟨closingCall, LibraryCall.isClosing⟩

/-- Add context to the error of a call. -/
def wrapped {α : Type} (context : String) (result : Except GoError α) : Except GoError α :=
  match result with
  | .ok a => .ok a
  | .error err => .error (.wrap context err)

/-- The result of a call that returns an error only. -/
def errorOnly (err : Option GoError) : Except GoError Unit :=
  match err with
  | none => .ok ()
  | some err => .error err

/-- A part of the loader. -/
abbrev Loader := Body LibraryCall.Answer GoError

/-- Add context to the error of a part of the loader. -/
def withContext {α : Type} (context : String) (body : Loader α) : Loader α := fun answer f =>
  (wrapped context (body answer f).1, (body answer f).2)

/-- Look a program up in the collection. -/
def findProgram (collection : Collection) (name : String) : Except GoError Handle :=
  match collection.programs name with
  | some program => .ok program
  | none => .error (.new ("failed to find XDP collection program: " ++ name))

/-- The index of an interface. -/
def getInterfaceIndex (netInterface : String) : Loader ℤ :=
  withContext ("unable to find interface " ++ netInterface) (ask (.interfaceByName netInterface) id)

/-- The body of `loadProgram`. -/
def Xdp.loadProgramBody (r : Xdp) : Loader Unit := do
  withContext "error removing memlock" (ask .removeMemlock errorOnly)
  let spec ← withContext "failed to load XDP collection spec" (ask .loadCollectionSpecFromReader id)
  let collection ← withContext "failed to create XDP collection"
    (acquire (.newCollection spec) id fun collection => .closeCollection collection.handle)
  let progDNAT ← check (findProgram collection dnatXDPProgName)
  let progSNAT ← check (findProgram collection snatXDPProgName)
  let pubIdxInterface ← withContext "failed to get index for public network card"
    (getInterfaceIndex r.pubNetInterface)
  let privIdxInterface ← withContext "failed to get index for private network card"
    (getInterfaceIndex r.privNetInterface)
  let _ ← withContext "failed to attach XDP link" (acquire (.attachXDP progDNAT pubIdxInterface) id .closeLink)
  let _ ← withContext "failed to attach XDP link" (acquire (.attachXDP progSNAT privIdxInterface) id .closeLink)
  pure ()

/-- Load and attach the programs: the body and then its deferred calls. -/
def Xdp.loadProgram (r : Xdp) (answer : Responder LibraryCall.Answer) (before : List LibraryEvent) :
    Except GoError Unit × List LibraryEvent :=
  call r.loadProgramBody answer before

/-- A router with its ring and its loader. -/
structure Router where
  ring : Ring
  xdp : Xdp

/-- `routing.New`, for the interfaces and the port of its configuration. -/
def newRouter (r : Xdp) (numVirtualNodes : ℤ) (answer : Responder LibraryCall.Answer)
    (before : List LibraryEvent) : Except GoError Router × List LibraryEvent :=
  if numVirtualNodes < 1 then (.error (.new "number of virtual nodes cannot be less than 1"), before)
  else
    match r.loadProgram answer before with
    | (.error err, trace) => (.error (.wrap "failed to load XDP program" err), trace)
    | (.ok (), trace) => (.ok ⟨newRing crc32Hasher numVirtualNodes, r⟩, trace)

/-- A call succeeds with context exactly when it succeeds. -/
theorem wrapped_eq_ok_iff {α : Type} {context : String} {result : Except GoError α} {a : α} :
    wrapped context result = .ok a ↔ result = .ok a := by
  unfold wrapped
  split
  · rfl
  · exact iff_of_false nofun nofun

/-- A call without an error succeeds. -/
theorem errorOnly_eq_ok_iff {err : Option GoError} {u : Unit} : errorOnly err = .ok u ↔ err = none := by
  unfold errorOnly
  split
  · exact iff_of_true rfl rfl
  · exact iff_of_false nofun nofun

/-- A program is found if it is in the collection. -/
theorem findProgram_eq_ok_iff {collection : Collection} {name : String} {program : Handle} :
    findProgram collection name = .ok program ↔ collection.programs name = some program := by
  unfold findProgram
  cases collection.programs name with
  | some other => rw [Except.ok.injEq, Option.some.injEq]
  | none => exact iff_of_false nofun nofun

/-- A part of the loader succeeds with context exactly when it succeeds. -/
theorem withContext_eq_ok_iff {α : Type} {context : String} {body : Loader α}
    {answer : Responder LibraryCall.Answer} {f f' : Activation LibraryCall.Answer} {a : α} :
    withContext context body answer f = (.ok a, f') ↔ body answer f = (.ok a, f') := by
  unfold withContext
  rw [Prod.mk.injEq, wrapped_eq_ok_iff, Prod.ext_iff]

/-- Adding context keeps a part of the loader tidy. -/
theorem tidy_withContext {α : Type} (context : String) {body : Loader α} (h : Tidy loaderDiscipline body) :
    Tidy loaderDiscipline (withContext context body) :=
  fun answer f => h answer f

/-- Looking an interface up is tidy. -/
theorem tidy_getInterfaceIndex (netInterface : String) : Tidy loaderDiscipline (getInterfaceIndex netInterface) :=
  tidy_withContext _ (tidy_ask rfl (fun _ => rfl) _)

/-- The creation of the collection is tidy. -/
theorem tidy_newCollection (spec : Handle) :
    Tidy loaderDiscipline (acquire (.newCollection spec) id
      fun collection => .closeCollection collection.handle : Loader Collection) := by
  refine tidy_acquire rfl (fun reply collection hreply => ?_) (fun reply err hreply => ?_)
  · cases hreply
    rfl
  · cases hreply
    rfl

/-- Attaching a program is tidy. -/
theorem tidy_attachXDP (program : Handle) (index : ℤ) :
    Tidy loaderDiscipline (acquire (.attachXDP program index) id .closeLink : Loader Handle) := by
  refine tidy_acquire rfl (fun reply link hreply => ?_) (fun reply err hreply => ?_)
  · cases hreply
    rfl
  · cases hreply
    rfl

/-- The loader defers the closing of everything that it opens. -/
theorem tidy_loadProgramBody (r : Xdp) : Tidy loaderDiscipline r.loadProgramBody := by
  refine (tidy_withContext _ (tidy_ask rfl (fun _ => rfl) _)).bind fun _ => ?_
  refine (tidy_withContext _ (tidy_ask rfl (fun _ => rfl) _)).bind fun spec => ?_
  refine (tidy_withContext _ (tidy_newCollection spec)).bind fun collection => ?_
  refine (tidy_check _).bind fun progDNAT => (tidy_check _).bind fun progSNAT => ?_
  refine (tidy_withContext _ (tidy_getInterfaceIndex _)).bind fun pubIdxInterface => ?_
  refine (tidy_withContext _ (tidy_getInterfaceIndex _)).bind fun privIdxInterface => ?_
  refine (tidy_withContext _ (tidy_attachXDP progDNAT pubIdxInterface)).bind fun _ => ?_
  exact (tidy_withContext _ (tidy_attachXDP progSNAT privIdxInterface)).bind fun _ => tidy_pure ()

/-- The calls of a loader that succeeds. -/
inductive LoadedBy (r : Xdp) : List LibraryEvent → Prop
  | intro (spec : Handle) (collection : Collection) (progDNAT progSNAT : Handle)
      (pubIdxInterface privIdxInterface : ℤ) (linkDNAT linkSNAT : Handle) (errDNAT errSNAT : Option GoError)
      (hDNAT : collection.programs dnatXDPProgName = some progDNAT)
      (hSNAT : collection.programs snatXDPProgName = some progSNAT) :
      LoadedBy r [⟨.removeMemlock, none⟩, ⟨.loadCollectionSpecFromReader, .ok spec⟩,
        ⟨.newCollection spec, .ok collection⟩, ⟨.interfaceByName r.pubNetInterface, .ok pubIdxInterface⟩,
        ⟨.interfaceByName r.privNetInterface, .ok privIdxInterface⟩,
        ⟨.attachXDP progDNAT pubIdxInterface, .ok linkDNAT⟩, ⟨.attachXDP progSNAT privIdxInterface, .ok linkSNAT⟩,
        ⟨.closeLink linkSNAT, errSNAT⟩, ⟨.closeLink linkDNAT, errDNAT⟩, ⟨.closeCollection collection.handle, ()⟩]

/-- A loader that succeeds has attached both programs, and closed both links and the collection. -/
theorem loadedBy_of_loadProgram {r : Xdp} {answer : Responder LibraryCall.Answer} {before trace : List LibraryEvent}
    (h : r.loadProgram answer before = (.ok (), trace)) : ∃ calls, trace = before ++ calls ∧ LoadedBy r calls := by
  obtain ⟨f', hbody, rfl⟩ := call_eq_ok_iff.mp h
  unfold Xdp.loadProgramBody at hbody
  simp only [bind_eq_ok_iff, getInterfaceIndex, withContext_eq_ok_iff, ask_eq_ok_iff, acquire_eq_ok_iff,
    check_eq_ok_iff, errorOnly_eq_ok_iff, findProgram_eq_ok_iff, id_eq] at hbody
  obtain ⟨-, _, ⟨_, rfl, -, rfl⟩, spec, _, ⟨_, rfl, -, rfl⟩, collection, _, ⟨_, rfl, -, rfl⟩,
    progDNAT, _, ⟨hDNAT, rfl⟩, progSNAT, _, ⟨hSNAT, rfl⟩,
    pubIdxInterface, _, ⟨_, rfl, -, rfl⟩, privIdxInterface, _, ⟨_, rfl, -, rfl⟩,
    linkDNAT, _, ⟨_, rfl, -, rfl⟩, linkSNAT, _, ⟨_, rfl, -, rfl⟩, hpure⟩ := hbody
  cases hpure
  simp only [unwind, List.append_assoc, List.cons_append, List.nil_append]
  exact ⟨_, rfl, .intro spec collection progDNAT progSNAT pubIdxInterface privIdxInterface linkDNAT linkSNAT
    _ _ hDNAT hSNAT⟩

/-- A call of `routing.New` makes its own calls and then the closing calls that these owe. -/
theorem exists_newRouter_closed (r : Xdp) (numVirtualNodes : ℤ) (answer : Responder LibraryCall.Answer)
    (before : List LibraryEvent) :
    ∃ own closing, (newRouter r numVirtualNodes answer before).2 = before ++ own ++ closing ∧
      Closed loaderDiscipline own closing := by
  unfold newRouter
  split_ifs
  · exact ⟨[], [], by simp, List.forall_mem_nil _, rfl⟩
  · obtain ⟨own, closing, htrace, hclosed⟩ := (tidy_loadProgramBody r).call answer before
    refine ⟨own, closing, Eq.trans ?_ htrace, hclosed⟩
    unfold Xdp.loadProgram
    split <;> rename_i hcall <;> rw [hcall]

/-- A router that is returned comes with two links that were attached and closed. -/
theorem loadedBy_of_newRouter {r : Xdp} {numVirtualNodes : ℤ} {answer : Responder LibraryCall.Answer}
    {before : List LibraryEvent} {router : Router} (h : (newRouter r numVirtualNodes answer before).1 = .ok router) :
    1 ≤ numVirtualNodes ∧ router = ⟨newRing crc32Hasher numVirtualNodes, r⟩ ∧
      ∃ calls, (newRouter r numVirtualNodes answer before).2 = before ++ calls ∧ LoadedBy r calls := by
  unfold newRouter at h ⊢
  split_ifs at h ⊢ with hfew
  refine ⟨not_lt.mp hfew, ?_⟩
  split at h
  · cases h
  · rename_i trace hload
    cases h
    exact ⟨rfl, loadedBy_of_loadProgram hload⟩

/-- Whatever the library answers, a call of `routing.New` closes each collection and each link that it was
handed out, once and in reverse order, after its other calls. So it leaves no trace in a state in which closing
undoes opening, if no link fails to close. A router that it returns comes with two closed links. -/
theorem newRouter_closes (r : Xdp) (numVirtualNodes : ℤ) (answer : Responder LibraryCall.Answer)
    (before : List LibraryEvent) :
    (∃ own closing, (newRouter r numVirtualNodes answer before).2 = before ++ own ++ closing ∧
      Closed loaderDiscipline own closing ∧
      ∀ (σ : Type) (effect : σ → LibraryEvent → σ),
        UndoneByClosing loaderDiscipline (fun e => failsToClose e = false) effect →
        (∀ e ∈ closing, failsToClose e = false) → ∀ s, (own ++ closing).foldl effect s = s) ∧
    ∀ router, (newRouter r numVirtualNodes answer before).1 = .ok router →
      1 ≤ numVirtualNodes ∧ router = ⟨newRing crc32Hasher numVirtualNodes, r⟩ ∧
        ∃ calls, (newRouter r numVirtualNodes answer before).2 = before ++ calls ∧ LoadedBy r calls := by
  obtain ⟨own, closing, htrace, hclosed⟩ := exists_newRouter_closed r numVirtualNodes answer before
  refine ⟨⟨own, closing, htrace, hclosed, fun σ effect heffect hdone s => ?_⟩, fun router => loadedBy_of_newRouter⟩
  exact hclosed.foldl_eq heffect hdone s

/-- The number of open collections and links after a call. -/
def openHandles (handles : ℤ) (e : LibraryEvent) : ℤ :=
  if (closingCall e).isSome then handles + 1 else if e.1.isClosing then handles - 1 else handles

/-- Closing undoes opening in the number of open collections and links. -/
theorem openHandles_undone :
    UndoneByClosing loaderDiscipline (fun e => failsToClose e = false) openHandles where
  quiet handles e howed hcloses := by
    have hnone : closingCall e = none := howed
    have hplain : e.1.isClosing = false := hcloses
    unfold openHandles
    rw [hnone, hplain]
    rfl
  undo handles e c a howed _ := by
    have hsome : closingCall e = some c := howed
    have hclosing : c.isClosing = true ∧ closingCall ⟨c, a⟩ = none := by
      unfold closingCall at hsome
      split at hsome <;> cases hsome <;> exact ⟨rfl, rfl⟩
    unfold openHandles
    rw [hsome, hclosing.1, hclosing.2]
    exact Int.add_sub_cancel handles 1

/-- A library that hands everything out. -/
def willingLibrary (_ : List LibraryEvent) : ∀ c : LibraryCall, c.Answer
  | .removeMemlock => none
  | .loadCollectionSpecFromReader => .ok 0
  | .newCollection _ => .ok ⟨1, fun name => if name = dnatXDPProgName then some 2 else some 3⟩
  | .interfaceByName name => .ok (if name = "eth0" then 2 else 3)
  | .attachXDP program _ => .ok (program + 2)
  | .closeCollection _ => ()
  | .closeLink _ => none

/-- With such a library a router is created, and nothing is open afterwards. -/
theorem newRouter_willingLibrary :
    (∃ router, (newRouter ⟨"eth0", "eth1", 8080⟩ 5 willingLibrary []).1 = .ok router) ∧
      (newRouter ⟨"eth0", "eth1", 8080⟩ 5 willingLibrary []).2.length = 10 ∧
      (newRouter ⟨"eth0", "eth1", 8080⟩ 5 willingLibrary []).2.foldl openHandles 0 = 0 := by
  obtain ⟨⟨own, closing, htrace, hclosed, hstate⟩, hloaded⟩ :=
    newRouter_closes ⟨"eth0", "eth1", 8080⟩ 5 willingLibrary []
  have hrouter : (newRouter ⟨"eth0", "eth1", 8080⟩ 5 willingLibrary []).1 = .ok _ := rfl
  have hdone : ∀ e ∈ (newRouter ⟨"eth0", "eth1", 8080⟩ 5 willingLibrary []).2, failsToClose e = false := by
    decide +kernel
  obtain ⟨-, -, calls, hcalls, hloadedBy⟩ := hloaded _ hrouter
  refine ⟨⟨_, hrouter⟩, ?_, ?_⟩
  · rw [hcalls]
    cases hloadedBy
    rfl
  · rw [htrace] at hdone ⊢
    exact hstate ℤ openHandles openHandles_undone (List.forall_mem_append.mp hdone).2 0

end GaleLB.Routing

import Eroil.Model.Shm.Block

/-! # The `Shm` object and its operating system resources

`shm/linux/linux_shm.cpp` and the callers that create, open and close an object. Each call gets the
results of the system calls it may make; its trace holds the calls that obtain a descriptor or a
mapping or give one back. `ftruncate`, `fstat` and `shm_unlink` do neither.
-/

namespace Eroil.Shm

/-- `shm_view`: null, `MAP_FAILED` or the address of a mapping. -/
inductive View where
  | null
  | failed
  | mapped (address : ℕ)
deriving DecidableEq

/-- A system call, with its result where it obtains something. -/
inductive OsCall where
  | shmOpen (fd : ℤ)
  | mmap (view : View)
  | munmap (view : View)
  | close (fd : ℤ)
deriving DecidableEq

def eexist : ℕ := 17
def enoent : ℕ := 2

/-- What the system calls return: `shm_open` a descriptor or an `errno`, `fstat` a size, `mmap` an
address. -/
structure OsResults where
  shmOpen : Except ℕ ℕ
  ftruncate : Bool
  fstat : Option ℕ
  mmap : Option ℕ

/-- The result of `mmap` as a view. -/
def OsResults.view (os : OsResults) : View :=
  match os.mmap with
  | none => .failed
  | some address => .mapped address

/-- `shm::Shm`. -/
structure ShmObject where
  id : Int32
  totalSize : ℕ
  handle : ℤ
  view : View

/-- What a call leaves: the object, the error code of its `ShmResult` and its system calls. -/
structure Returned where
  shm : ShmObject
  code : ShmErr
  calls : List OsCall

namespace ShmObject

/-- The constructor. -/
def new (id : Int32) (totalSize : ℕ) : ShmObject := ⟨id, totalSize, -1, .null⟩

def isValid (shm : ShmObject) : Bool := shm.handle ≥ 0 && shm.view != .null

def name (shm : ShmObject) : List Char :=
  "/eroil.node.".toList ++ (toString shm.id.toInt).toList

def create (shm : ShmObject) (os : OsResults) : Returned :=
  if shm.isValid then ⟨shm, .doubleOpen, []⟩
  else if shm.name.isEmpty || shm.name.head? != some '/' then ⟨shm, .invalidName, []⟩
  else
    match os.shmOpen with
    | .error errno =>
        ⟨{ shm with handle := -1 }, if errno = eexist then .alreadyExists else .unknownError,
          [.shmOpen (-1)]⟩
    | .ok fd =>
        if !os.ftruncate then ⟨{ shm with handle := fd }, .unknownError, [.shmOpen fd, .close fd]⟩
        else if os.view = .failed then
          ⟨{ shm with handle := fd, view := os.view }, .fileMapFailed,
            [.shmOpen fd, .mmap os.view, .close fd]⟩
        else ⟨{ shm with handle := fd, view := os.view }, .none, [.shmOpen fd, .mmap os.view]⟩

/-- `Shm::open`. -/
def openShm (shm : ShmObject) (os : OsResults) : Returned :=
  if shm.isValid then ⟨shm, .doubleOpen, []⟩
  else if shm.name.isEmpty || shm.name.head? != some '/' then ⟨shm, .invalidName, []⟩
  else
    match os.shmOpen with
    | .error errno =>
        ⟨{ shm with handle := -1 }, if errno = enoent then .doesNotExist else .unknownError,
          [.shmOpen (-1)]⟩
    | .ok fd =>
        match os.fstat with
        | none => ⟨{ shm with handle := fd }, .unknownError, [.shmOpen fd, .close fd]⟩
        | some size =>
            if size ≠ shm.totalSize then
              ⟨{ shm with handle := fd }, .sizeMismatch, [.shmOpen fd, .close fd]⟩
            else if os.view = .failed then
              ⟨{ shm with handle := fd, view := os.view }, .fileMapFailed,
                [.shmOpen fd, .mmap os.view, .close fd]⟩
            else ⟨{ shm with handle := fd, view := os.view }, .none, [.shmOpen fd, .mmap os.view]⟩

/-- `Shm::close`, which the destructor calls too. -/
def close (shm : ShmObject) : Returned where
  shm :=
    { shm with
      view := .null
      handle := if shm.handle ≥ 0 then -1 else shm.handle }
  code := .none
  calls :=
    (if shm.view ≠ .null then [.munmap shm.view] else []) ++
      (if shm.handle ≥ 0 then [.close shm.handle] else [])

end ShmObject

/-- A call on the object. -/
inductive ShmCall where
  | create (os : OsResults)
  | openShm (os : OsResults)
  | close

/-- `create` and `open`, the calls that can fail. -/
def ShmCall.opens : ShmCall → Bool
  | .create _ => true
  | .openShm _ => true
  | .close => false

def ShmObject.call (shm : ShmObject) : ShmCall → Returned
  | .create os => shm.create os
  | .openShm os => shm.openShm os
  | .close => shm.close

/-- The calls that `ShmSend::open` makes when its attempts meet the given results. -/
def sendOpenCalls (shm : ShmObject) : List OsResults → List ShmCall
  | [] => []
  | os :: attempts =>
      let returned := shm.openShm os
      .openShm os :: if returned.code = .none then [] else sendOpenCalls returned.shm attempts

/-- Whether one of the attempts of `ShmSend::open` succeeds. -/
def sendOpens (shm : ShmObject) : List OsResults → Bool
  | [] => false
  | os :: attempts =>
      let returned := shm.openShm os
      returned.code = .none || sendOpens returned.shm attempts

/-- Number of attempts in `ShmSend::open`. -/
def sendOpenAttempts : ℕ := 50

/-- The life of an object of `TransportRegistry::open_send_shm`: at most 50 attempts, a call of
`close` if all fail, and the destructor. -/
def openSendShmCalls (shm : ShmObject) (attempts : List OsResults) : List ShmCall :=
  sendOpenCalls shm (attempts.take sendOpenAttempts) ++
    (if sendOpens shm (attempts.take sendOpenAttempts) then [] else [.close]) ++ [.close]

/-- The life of an object of `TransportRegistry::open_recv_shm`: `create_or_open`, whose
initialisation may fail too, a call of `close` after a failure, and the destructor. -/
def openRecvShmCalls (shm : ShmObject) (created opened : OsResults) (initialised : Bool) :
    List ShmCall :=
  let returned := shm.create created
  match returned.code with
  | .none => .create created :: (if initialised then [] else [.close]) ++ [.close]
  | .alreadyExists =>
      .create created :: .openShm opened ::
        (if (returned.shm.openShm opened).code = .none ∧ initialised then [] else [.close]) ++
        [.close]
  | _ => [.create created, .close, .close]

end Eroil.Shm

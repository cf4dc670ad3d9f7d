import Line2.Lnexec.GsSupport

/-! `sys_tls.c`: `sys_set_thread_area` copies the guest's `user_desc` into a
fresh block and stores the block's address in the TLS slot of its entry. -/
namespace Line2.Lnexec
open Library.Memory

def LINUX_ESRCH : Int := 3

/-- `*udesc`, sixteen bytes of guest memory. -/
def readUserDesc (m : Mem) (udesc : Addr) : LinuxUserDesc where
  entry_number := read32 m udesc
  base_addr := read32 m (udesc + 4#32)
  limit := read32 m (udesc + 8#32)
  flags := read32 m (udesc + 12#32)

/-- From `malloc` on: copy the struct and store the block under its entry. -/
def installDescriptor (t : Tls) (m : Mem) (udesc : Addr) (malloc : Bool) :
    Except Fault Int × Tls × Mem :=
  if malloc then
    let t' := { t with heap := t.heap ++ [readUserDesc m udesc] }
    (.ok 0,tlsSetValue t' (read32 m udesc) (.descriptor t.heap.length),m)
  else (.error .nullBlock,t,m)  -- memcpy to the NULL that malloc returned

/-- `answer` is what `TlsAlloc` returns if called, `malloc` whether it succeeds. -/
def sysSetThreadArea (t : Tls) (m : Mem) (udesc : Addr) (answer : Word) (malloc : Bool) :
    Except Fault Int × Tls × Mem :=
  if read32 m udesc = 0xffffffff#32 then
    let r := tlsAlloc t answer
    let m' := write32 m udesc r.1
    if read32 m' udesc = TLS_OUT_OF_INDEXES then (.ok (-LINUX_ESRCH),r.2,m')
    else installDescriptor r.2 m' udesc malloc
  else installDescriptor t m udesc malloc

end Line2.Lnexec

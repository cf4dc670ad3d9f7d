import Mathlib.Logic.Function.Iterate
import Line2.Ia32.Assembly
import Line2.Lnexec.Intercept

/-! `syscall_dispatch.c`: the table of system calls, its bounds test, and the
naked trampoline that turns a trapped guest context into a cdecl call. -/
namespace Line2.Lnexec
open Library.Memory Ia32 Ia32.Asm

/-- The functions that `syscalls.inc` expands to, in its order. -/
def SysEntry : List String := [
  "sys_restart_syscall", "sys_exit", "sys_fork", "sys_read", "sys_write", "sys_open", "sys_close",
  "sys_waitpid", "sys_creat", "sys_link", "sys_unlink", "sys_execve", "sys_chdir", "sys_time",
  "sys_mknod", "sys_chmod", "sys_lchown", "sys_break", "sys_oldstat", "sys_lseek", "sys_getpid",
  "sys_mount", "sys_umount", "sys_setuid", "sys_getuid", "sys_stime", "sys_ptrace", "sys_alarm",
  "sys_oldfstat", "sys_pause", "sys_utime", "sys_stty", "sys_gtty", "sys_access", "sys_nice",
  "sys_ftime", "sys_sync", "sys_kill", "sys_rename", "sys_mkdir", "sys_rmdir", "sys_dup",
  "sys_pipe", "sys_times", "sys_prof", "sys_brk", "sys_setgid", "sys_getgid", "sys_signal",
  "sys_geteuid", "sys_getegid", "sys_acct", "sys_umount2", "sys_lock", "sys_ioctl", "sys_fcntl",
  "sys_mpx", "sys_setpgid", "sys_ulimit", "sys_oldolduname", "sys_umask", "sys_chroot",
  "sys_ustat", "sys_dup2", "sys_getppid", "sys_getpgrp", "sys_setsid", "sys_sigaction",
  "sys_sgetmask", "sys_ssetmask", "sys_setreuid", "sys_setregid", "sys_sigsuspend",
  "sys_sigpending", "sys_sethostname", "sys_setrlimit", "sys_getrlimit", "sys_getrusage",
  "sys_gettimeofday", "sys_settimeofday", "sys_getgroups", "sys_setgroups", "sys_select",
  "sys_symlink", "sys_oldlstat", "sys_readlink", "sys_uselib", "sys_swapon", "sys_reboot",
  "sys_readdir", "sys_mmap", "sys_munmap", "sys_truncate", "sys_ftruncate", "sys_fchmod",
  "sys_fchown", "sys_getpriority", "sys_setpriority", "sys_profil", "sys_statfs", "sys_fstatfs",
  "sys_ioperm", "sys_socketcall", "sys_syslog", "sys_setitimer", "sys_getitimer", "sys_stat",
  "sys_lstat", "sys_fstat", "sys_olduname", "sys_iopl", "sys_vhangup", "sys_idle", "sys_vm86old",
  "sys_wait4", "sys_swapoff", "sys_sysinfo", "sys_ipc", "sys_fsync", "sys_sigreturn", "sys_clone",
  "sys_setdomainname", "sys_uname", "sys_modify_ldt", "sys_adjtimex", "sys_mprotect",
  "sys_sigprocmask", "sys_create_module", "sys_init_module", "sys_delete_module",
  "sys_get_kernel_syms", "sys_quotactl", "sys_getpgid", "sys_fchdir", "sys_bdflush", "sys_sysfs",
  "sys_personality", "sys_afs_syscall", "sys_setfsuid", "sys_setfsgid", "sys__llseek",
  "sys_getdents", "sys__newselect", "sys_flock", "sys_msync", "sys_readv", "sys_writev",
  "sys_getsid", "sys_fdatasync", "sys__sysctl", "sys_mlock", "sys_munlock", "sys_mlockall",
  "sys_munlockall", "sys_sched_setparam", "sys_sched_getparam", "sys_sched_setschedul",
  "sys_sched_getschedul", "sys_sched_yield", "sys_sched_get_priority_max",
  "sys_sched_get_priority_min", "sys_sched_rr_get_int", "sys_nanosleep", "sys_mremap",
  "sys_setresuid", "sys_getresuid", "sys_vm86", "sys_query_module", "sys_poll", "sys_nfsservctl",
  "sys_setresgid", "sys_getresgid", "sys_prctl", "sys_rt_sigreturn", "sys_rt_sigaction",
  "sys_rt_sigprocmask", "sys_rt_sigpending", "sys_rt_sigtimedwait", "sys_rt_sigqueueinfo",
  "sys_rt_sigsuspend", "sys_pread64", "sys_pwrite64", "sys_chown", "sys_getcwd", "sys_capget",
  "sys_capset", "sys_sigaltstack", "sys_sendfile", "sys_getpmsg", "sys_putpmsg", "sys_vfork",
  "sys_ugetrlimit", "sys_mmap2", "sys_truncate64", "sys_ftruncate64", "sys_stat64", "sys_lstat64",
  "sys_fstat64", "sys_lchown32", "sys_getuid32", "sys_getgid32", "sys_geteuid32", "sys_getegid32",
  "sys_setreuid32", "sys_setregid32", "sys_getgroups32", "sys_setgroups32", "sys_fchown32",
  "sys_setresuid32", "sys_getresuid32", "sys_setresgid32", "sys_getresgid32", "sys_chown32",
  "sys_setuid32", "sys_setgid32", "sys_setfsuid32", "sys_setfsgid32", "sys_pivot_root",
  "sys_mincore", "sys_madvise", "sys_getdents64", "sys_fcntl64", "sys_unused_222",
  "sys_unused_223", "sys_gettid", "sys_readahead", "sys_setxattr", "sys_lsetxattr",
  "sys_fsetxattr", "sys_getxattr", "sys_lgetxattr", "sys_fgetxattr", "sys_listxattr",
  "sys_llistxattr", "sys_flistxattr", "sys_removexattr", "sys_lremovexattr", "sys_fremovexattr",
  "sys_tkill", "sys_sendfile64", "sys_futex", "sys_sched_setaffinity", "sys_sched_getaffinity",
  "sys_set_thread_area", "sys_get_thread_area", "sys_io_setup", "sys_io_destroy",
  "sys_io_getevents", "sys_io_submit", "sys_io_cancel", "sys_fadvise64", "sys_unused_251",
  "sys_exit_group", "sys_lookup_dcookie", "sys_epoll_create", "sys_epoll_ctl", "sys_epoll_wait",
  "sys_remap_file_pages", "sys_set_tid_address", "sys_timer_create", "sys_timer_settime",
  "sys_timer_gettime", "sys_timer_getoverrun", "sys_timer_delete", "sys_clock_settime",
  "sys_clock_gettime", "sys_clock_getres", "sys_clock_nanosleep", "sys_statfs64", "sys_fstatfs64",
  "sys_tgkill", "sys_utimes", "sys_fadvise64_64", "sys_vserver", "sys_mbind", "sys_get_mempolicy",
  "sys_set_mempolicy", "sys_mq_open", "sys_mq_unlink", "sys_mq_timedsend", "sys_mq_timedreceive",
  "sys_mq_notify", "sys_mq_getsetattr", "sys_kexec_load", "sys_waitid", "sys_unused_287",
  "sys_add_key", "sys_request_key", "sys_keyctl", "sys_ioprio_set", "sys_ioprio_get",
  "sys_inotify_init", "sys_inotify_add_watch", "sys_inotify_rm_watch", "sys_migrate_pages",
  "sys_openat", "sys_mkdirat", "sys_mknodat", "sys_fchownat", "sys_futimesat", "sys_fstatat64",
  "sys_unlinkat", "sys_renameat", "sys_linkat", "sys_symlinkat", "sys_readlinkat", "sys_fchmodat",
  "sys_faccessat", "sys_pselect6", "sys_ppoll", "sys_unshare", "sys_set_robust_list",
  "sys_get_robust_list", "sys_splice", "sys_sync_file_range", "sys_tee", "sys_vmsplice",
  "sys_move_pages", "sys_getcpu", "sys_epoll_pwait", "sys_utimensat", "sys_signalfd",
  "sys_timerfd_create", "sys_eventfd", "sys_fallocate", "sys_timerfd_settime",
  "sys_timerfd_gettime", "sys_signalfd4", "sys_eventfd2", "sys_epoll_create1", "sys_dup3",
  "sys_pipe2", "sys_inotify_init1", "sys_preadv", "sys_pwritev", "sys_rt_tgsigqueueinfo",
  "sys_perf_event_open", "sys_recvmmsg", "sys_fanotify_init", "sys_fanotify_mark",
  "sys_prlimit64", "sys_name_to_handle_at", "sys_open_by_handle_at", "sys_clock_adjtime",
  "sys_syncfs", "sys_sendmmsg", "sys_setns", "sys_process_vm_readv", "sys_process_vm_writev",
  "sys_kcmp", "sys_finit_module"]

/-- `int NSys = _countof(SysEntry)` -/
def NSys : Int := SysEntry.length

structure SysArgs where
  arg1 : Word
  arg2 : Word
  arg3 : Word
  arg4 : Word
  arg5 : Word
  arg6 : Word
  deriving DecidableEq

inductive DispatchTarget
  | function (name : String)
  | outsideTable (SyscallId : Int)
  | exit
  deriving DecidableEq

/-- Where `DispatchSyscall` goes; the index is a signed int. -/
def dispatchSyscall (SyscallId : Word) : DispatchTarget :=
  let id := SyscallId.toInt
  if 0 ≤ id ∨ id < NSys then
    if 0 ≤ id then (SysEntry[id.toNat]?).elim (.outsideTable id) .function
    else .outsideTable id
  else .exit

/-- What one activation of `DispatchSyscall`, entered at `s`, and of the handler
it calls leaves behind. EBX, ESI, EDI, EBP and ESP are not listed: cdecl gives
them back. Bytes change only in the frames below the entry ESP, which end above
the trampoline's slots, or where the handler stored through a pointer. -/
structure Activation (σ : Type) (s : State) where
  world : σ
  eax : Word
  ecx : Word
  edx : Word
  eflags : Word
  mem : Mem
  depth : Nat
  stored : Addr → Prop
  depth_le : depth + 36 ≤ 2^32
  frame : ∀ x, ¬ Within (s.cpu.esp - BitVec.ofNat 32 depth) depth x → ¬ stored x → mem x = s.mem x

/-- A handler by its behaviour: any function of the host's state, the arguments
and the machine it runs on. -/
abbrev Handler (σ : Type) := σ → SysArgs → (s : State) → Activation σ s

/-- What the linker resolved the names of the table to. -/
abbrev Link (σ : Type) := String → Handler σ

/-- A call made through the table. -/
structure SysCall where
  name : String
  args : SysArgs
  deriving DecidableEq

/-- Addresses of the two host functions. -/
structure HostCode where
  handleSyscall : Addr
  dispatchSyscall : Addr
  apart : ∀ k < 23, handleSyscall + BitVec.ofNat 32 k ≠ dispatchSyscall

/-- `HandleSyscall`, `__declspec(naked)`. -/
def handleSyscall (host : HostCode) : List Asm := [
  push .ebp, push .edi, push .esi, push .edx, push .ecx, push .ebx, push .eax,
  call host.dispatchSyscall,
  addImm8 .esp 4#32, pop .ebx, addImm8 .esp 8#32, pop .esi, pop .edi, pop .ebp, ret]

/-- Parameter `k` of a cdecl function just entered: the return address is at ESP. -/
def cdeclParam (s : State) (k : Nat) : Word := read32 s.mem (s.cpu.esp + BitVec.ofNat 32 (4 * (k+1)))

/-- The `ret` of a cdecl function: back to the address at ESP, which is popped. -/
def Activation.returned {σ : Type} {s : State} (act : Activation σ s) : State where
  cpu := { s.cpu with
    eax := act.eax, ecx := act.ecx, edx := act.edx, eflags := act.eflags
    esp := s.cpu.esp + 4#32, eip := read32 act.mem s.cpu.esp }
  mem := act.mem

/-- The host side of a trap: still running, with the calls made so far, or over. -/
inductive Trampoline (σ : Type)
  | running (world : σ) (calls : List SysCall) (s : State)
  | exited
  | outsideTable (SyscallId : Int)
  | lost (s : State)

/-- One step: `DispatchSyscall` is taken whole, at its own address; elsewhere an
instruction of `HandleSyscall` runs, and EIP must be at one. -/
def trampolineStep {σ : Type} (host : HostCode) (link : Link σ) : Trampoline σ → Trampoline σ
  | .running w calls s =>
    if s.cpu.eip = host.dispatchSyscall then
      let args : SysArgs := ⟨cdeclParam s 1,cdeclParam s 2,cdeclParam s 3,
        cdeclParam s 4,cdeclParam s 5,cdeclParam s 6⟩
      match dispatchSyscall (cdeclParam s 0) with
      | .function name =>
        let act := link name w args s
        .running act.world (calls ++ [⟨name,args⟩]) act.returned
      | .outsideTable id => .outsideTable id
      | .exit => .exited
    else match Asm.step host.handleSyscall (handleSyscall host) s with
      | some s' => .running w calls s'
      | none => .lost s
  | t => t

/-- Seven pushes, the call, `DispatchSyscall`, six instructions and the `ret`. -/
def trampolineSteps : Nat := 16

/-- An `int 80h` of the guest, from the exception until `HandleSyscall` returned. -/
def syscallTrap {σ : Type} (host : HostCode) (link : Link σ) (w : σ) (s : State) : Trampoline σ :=
  (trampolineStep host link)^[trampolineSteps]
    (.running w [] (tryHandleInt80 host.handleSyscall s).2)

set_option maxRecDepth 2000 in
theorem sysEntry_length : SysEntry.length = 351 := rfl

/-- Inside the table the test accepts and the entry is the one indexed. -/
theorem dispatchSyscall_inside {SyscallId : Word} (h0 : 0 ≤ SyscallId.toInt)
    (h : SyscallId.toInt < NSys) :
    ∃ hi : SyscallId.toNat < SysEntry.length,
      dispatchSyscall SyscallId = .function SysEntry[SyscallId.toNat] := by
  have hnat : SyscallId.toInt.toNat = SyscallId.toNat := by
    rw [BitVec.toInt_eq_toNat_cond] at *
    split at h0 <;> omega
  have hi : SyscallId.toNat < SysEntry.length := by
    rw [← hnat]
    unfold NSys at h
    omega
  refine ⟨hi,?_⟩
  simp only [dispatchSyscall, h0, true_or, if_true, hnat]
  rw [List.getElem?_eq_getElem hi, Option.elim_some]

end Line2.Lnexec

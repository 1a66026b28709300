import Prune.Disk.Basic

/-!
What a system brings along: its devices, its programs, and the directories they are in.
-/

namespace Prune.Disk

def programs : List String :=
  ["[", "arch", "awk", "base32", "base64", "basename", "bash", "cat", "chmod", "cksum", "cmp",
    "comm", "cp", "cut", "dash", "date", "diff", "dirname", "du", "echo", "egrep", "env", "expand", "expr", "false", "fgrep", "find", "fold", "grep",
    "gunzip", "gzip", "head", "hostname", "id", "install", "join", "kill", "link", "ln", "ls", "mawk",
    "md5sum", "mkdir", "mktemp", "mv", "nice", "nl", "nproc", "od", "paste", "printenv",
    "printf", "pwd", "readlink", "realpath", "rev", "rm", "rmdir", "sed", "seq", "sh",
    "sha1sum", "sha224sum", "sha256sum", "sha512sum", "sleep", "sort", "stat",
    "sum", "sync", "tac", "tail", "tar", "tee", "test", "timeout", "touch", "tr", "true",
    "truncate", "tty", "uname", "unexpand", "uniq", "unlink", "wc", "which", "whoami", "xargs", "yes", "zcat"]

def locationOf (text : String) : Location := (text.splitOn "/").map Bytes.ofString

def users : List String :=
  ["root:x:0:0:root:/root:/bin/bash", "daemon:x:1:1:daemon:/usr/sbin:/usr/sbin/nologin",
    "bin:x:2:2:bin:/bin:/usr/sbin/nologin", "sys:x:3:3:sys:/dev:/usr/sbin/nologin",
    "sync:x:4:65534:sync:/bin:/bin/sync", "games:x:5:60:games:/usr/games:/usr/sbin/nologin",
    "man:x:6:12:man:/var/cache/man:/usr/sbin/nologin",
    "lp:x:7:7:lp:/var/spool/lpd:/usr/sbin/nologin", "mail:x:8:8:mail:/var/mail:/usr/sbin/nologin",
    "news:x:9:9:news:/var/spool/news:/usr/sbin/nologin",
    "uucp:x:10:10:uucp:/var/spool/uucp:/usr/sbin/nologin",
    "proxy:x:13:13:proxy:/bin:/usr/sbin/nologin",
    "www-data:x:33:33:www-data:/var/www:/usr/sbin/nologin",
    "backup:x:34:34:backup:/var/backups:/usr/sbin/nologin",
    "list:x:38:38:Mailing List Manager:/var/list:/usr/sbin/nologin",
    "irc:x:39:39:ircd:/run/ircd:/usr/sbin/nologin",
    "_apt:x:42:65534::/nonexistent:/usr/sbin/nologin",
    "nobody:x:65534:65534:nobody:/nonexistent:/usr/sbin/nologin"]

def groups : List String :=
  ["root:x:0:", "daemon:x:1:", "bin:x:2:", "sys:x:3:", "adm:x:4:", "tty:x:5:", "disk:x:6:",
    "lp:x:7:", "mail:x:8:", "news:x:9:", "uucp:x:10:", "man:x:12:", "proxy:x:13:", "kmem:x:15:",
    "dialout:x:20:", "fax:x:21:", "voice:x:22:", "cdrom:x:24:", "floppy:x:25:", "tape:x:26:",
    "sudo:x:27:", "audio:x:29:", "dip:x:30:", "www-data:x:33:", "backup:x:34:", "operator:x:37:",
    "list:x:38:", "irc:x:39:", "src:x:40:", "shadow:x:42:", "utmp:x:43:", "video:x:44:",
    "sasl:x:45:", "plugdev:x:46:", "staff:x:50:", "games:x:60:", "users:x:100:",
    "nogroup:x:65534:"]

def processStatus : List String :=
  ["Name:\tcat", "Umask:\t0022", "State:\tR (running)", "Uid:\t0\t0\t0\t0", "Gid:\t0\t0\t0\t0", "Threads:\t1"]

def systemFiles : List (String × Nat × List String) :=
  [⟨"etc/passwd", 0o644, users⟩, ⟨"etc/group", 0o644, groups⟩,
    ⟨"etc/hosts", 0o644, ["127.0.0.1\tlocalhost"]⟩, ⟨"etc/hostname", 0o644, ["localhost"]⟩,
    ⟨"etc/shells", 0o644, ["# /etc/shells: valid login shells", "/bin/sh", "/usr/bin/sh", "/bin/bash",
      "/usr/bin/bash", "/bin/rbash", "/usr/bin/rbash", "/bin/dash", "/usr/bin/dash"]⟩,
    ⟨"etc/debian_version", 0o644, ["12.0"]⟩,
    ⟨"etc/os-release", 0o644, ["PRETTY_NAME=\"Debian GNU/Linux 12 (bookworm)\"",
      "NAME=\"Debian GNU/Linux\"", "VERSION_ID=\"12\"", "VERSION=\"12 (bookworm)\"",
      "VERSION_CODENAME=bookworm", "ID=debian"]⟩,
    ⟨"etc/profile", 0o644, []⟩, ⟨"etc/fstab", 0o644, []⟩, ⟨"etc/resolv.conf", 0o644, []⟩,
    ⟨"proc/self/status", 0o444, processStatus⟩, ⟨"proc/self/cmdline", 0o444, []⟩,
    ⟨"proc/self/environ", 0o400, []⟩, ⟨"proc/self/comm", 0o644, ["sh"]⟩,
    ⟨"proc/self/limits", 0o444, []⟩, ⟨"proc/self/maps", 0o444, []⟩, ⟨"proc/self/stat", 0o444, []⟩,
    ⟨"proc/version", 0o444, ["Linux version"]⟩, ⟨"proc/cpuinfo", 0o444, ["processor\t: 0"]⟩,
    ⟨"proc/meminfo", 0o444, ["MemTotal:        8000000 kB"]⟩, ⟨"proc/uptime", 0o444, ["1.00 1.00"]⟩,
    ⟨"proc/loadavg", 0o444, ["0.00 0.00 0.00 1/1 1"]⟩, ⟨"proc/stat", 0o444, []⟩,
    ⟨"proc/mounts", 0o444, []⟩, ⟨"proc/filesystems", 0o444, []⟩,
    ⟨"proc/sys/kernel/ostype", 0o444, ["Linux"]⟩, ⟨"proc/sys/kernel/hostname", 0o644, ["localhost"]⟩]

open Entry in
def systemEntries : List (Location × Entry) :=
  let directories := ["boot", "dev", "dev/fd", "dev/shm", "etc", "home", "media", "mnt", "opt", "proc",
    "proc/self", "proc/sys", "proc/sys/kernel", "root", "run", "srv", "sys", "usr", "usr/bin",
    "usr/include", "usr/lib", "usr/local", "usr/local/bin", "usr/local/sbin", "usr/sbin", "usr/share",
    "var", "var/lib", "var/log"]
  let links := [("bin", "usr/bin"), ("lib", "usr/lib"), ("sbin", "usr/sbin"),
    ("etc/mtab", "../proc/self/mounts"), ("proc/self/fd", "/dev/fd")]
  let devices := [("null", .null), ("full", .full), ("zero", .zero), ("random", .zero),
    ("urandom", .zero), ("tty", .terminal), ("stdin", .descriptor 0), ("stdout", .descriptor 1),
    ("stderr", .descriptor 2)]
  ["tmp", "var/tmp"].map (fun d => (locationOf d, dir 0o1777)) ++
  devices.map (fun (name, what) => (locationOf ("dev/" ++ name), special what)) ++
  (List.range 64).map (fun fd => (locationOf ("dev/fd/" ++ toString fd), special (.descriptor fd))) ++
  directories.map (fun d => (locationOf d, dir plainDirMode)) ++
  links.map (fun (name, target) => (locationOf name, link (Bytes.ofString target))) ++
  systemFiles.map (fun (name, mode, lines) =>
    (locationOf name, file mode (lines.flatMap fun l => Bytes.ofString l ++ [10]))) ++
  programs.map fun name => (locationOf ("usr/bin/" ++ name), special (.program name))

/-- A disk with nothing but the system and an empty directory to work in. -/
def fresh (cwd : Location) : Disk where
  entries := (cwd, .dir plainDirMode) :: systemEntries
  cwd

end Prune.Disk

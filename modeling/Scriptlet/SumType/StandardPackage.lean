/-!
# Packages that come with Go

The packages of the standard library and of its commands. The name of each of them
is the last part of its path.
-/

namespace Scriptlet

namespace SumType

namespace Import

/-- The packages that any code can use. -/
def publicPackages : List String :=
  ["C", "archive/tar", "archive/zip", "bufio", "builtin", "bytes", "compress/bzip2",
    "compress/flate", "compress/gzip", "compress/lzw", "compress/zlib", "container/heap",
    "container/list", "container/ring", "context", "crypto", "crypto/aes", "crypto/cipher",
    "crypto/des", "crypto/dsa", "crypto/ecdsa", "crypto/elliptic", "crypto/hmac", "crypto/md5",
    "crypto/rand", "crypto/rc4", "crypto/rsa", "crypto/sha1", "crypto/sha256", "crypto/sha512",
    "crypto/subtle", "crypto/tls", "crypto/x509", "crypto/x509/pkix", "database/sql",
    "database/sql/driver", "debug/dwarf", "debug/elf", "debug/gosym", "debug/macho", "debug/pe",
    "debug/plan9obj", "encoding", "encoding/ascii85", "encoding/asn1", "encoding/base32",
    "encoding/base64", "encoding/binary", "encoding/csv", "encoding/gob", "encoding/hex",
    "encoding/json", "encoding/pem", "encoding/xml", "errors", "expvar", "flag", "fmt", "go/ast",
    "go/build", "go/constant", "go/doc", "go/format", "go/importer", "go/parser", "go/printer",
    "go/scanner", "go/token", "go/types", "hash", "hash/adler32", "hash/crc32", "hash/crc64",
    "hash/fnv", "html", "html/template", "image", "image/color", "image/color/palette",
    "image/draw", "image/gif", "image/jpeg", "image/png", "index/suffixarray", "io", "io/ioutil",
    "log", "log/syslog", "math", "math/big", "math/bits", "math/cmplx", "math/rand", "mime",
    "mime/multipart", "mime/quotedprintable", "net", "net/http", "net/http/cgi",
    "net/http/cookiejar", "net/http/fcgi", "net/http/httptest", "net/http/httptrace",
    "net/http/httputil", "net/http/pprof", "net/mail", "net/rpc", "net/rpc/jsonrpc", "net/smtp",
    "net/textproto", "net/url", "os", "os/exec", "os/signal", "os/user", "path", "path/filepath",
    "plugin", "reflect", "regexp", "regexp/syntax", "runtime", "runtime/cgo", "runtime/debug",
    "runtime/pprof", "runtime/race", "runtime/trace", "sort", "strconv", "strings", "sync",
    "sync/atomic", "syscall", "testing", "testing/iotest", "testing/quick", "text/scanner",
    "text/tabwriter", "text/template", "text/template/parse", "time", "unicode", "unicode/utf16",
    "unicode/utf8", "unsafe"]

/-- The packages that only the standard library uses. -/
def internalPackages : List String :=
  ["crypto/internal/cipherhw", "crypto/internal/randutil", "crypto/internal/subtle",
    "go/internal/gccgoimporter", "go/internal/gcimporter", "go/internal/srcimporter",
    "image/internal/imageutil", "internal/bytealg", "internal/cpu", "internal/fmtsort",
    "internal/goroot", "internal/nettrace", "internal/poll", "internal/race",
    "internal/singleflight", "internal/syscall/unix", "internal/syscall/windows",
    "internal/syscall/windows/registry", "internal/syscall/windows/sysdll", "internal/testenv",
    "internal/testlog", "internal/trace", "internal/x/crypto/chacha20poly1305",
    "internal/x/crypto/cryptobyte", "internal/x/crypto/cryptobyte/asn1",
    "internal/x/crypto/curve25519", "internal/x/crypto/hkdf", "internal/x/crypto/internal/chacha20",
    "internal/x/crypto/poly1305", "internal/x/net/dns/dnsmessage", "internal/x/net/http/httpguts",
    "internal/x/net/http/httpproxy", "internal/x/net/http2/hpack", "internal/x/net/idna",
    "internal/x/net/nettest", "internal/x/text/secure", "internal/x/text/secure/bidirule",
    "internal/x/text/transform", "internal/x/text/unicode", "internal/x/text/unicode/bidi",
    "internal/x/text/unicode/norm", "internal/xcoff", "net/http/internal", "net/internal/socktest",
    "os/signal/internal/pty", "runtime/internal/atomic", "runtime/internal/math",
    "runtime/internal/sys", "runtime/pprof/internal/profile", "testing/internal/testdeps"]

/-- The packages that the commands of Go use. -/
def commandPackages : List String :=
  ["cmd/asm/internal/arch", "cmd/asm/internal/asm", "cmd/asm/internal/flags",
    "cmd/asm/internal/lex", "cmd/compile/internal/amd64", "cmd/compile/internal/arm",
    "cmd/compile/internal/arm64", "cmd/compile/internal/gc", "cmd/compile/internal/mips",
    "cmd/compile/internal/mips64", "cmd/compile/internal/ppc64", "cmd/compile/internal/s390x",
    "cmd/compile/internal/ssa", "cmd/compile/internal/syntax", "cmd/compile/internal/test",
    "cmd/compile/internal/types", "cmd/compile/internal/wasm", "cmd/compile/internal/x86",
    "cmd/go/internal/base", "cmd/go/internal/bug", "cmd/go/internal/cache", "cmd/go/internal/cfg",
    "cmd/go/internal/clean", "cmd/go/internal/cmdflag", "cmd/go/internal/dirhash",
    "cmd/go/internal/doc", "cmd/go/internal/envcmd", "cmd/go/internal/fix",
    "cmd/go/internal/fmtcmd", "cmd/go/internal/generate", "cmd/go/internal/get",
    "cmd/go/internal/help", "cmd/go/internal/imports", "cmd/go/internal/list",
    "cmd/go/internal/load", "cmd/go/internal/lockedfile", "cmd/go/internal/modcmd",
    "cmd/go/internal/modconv", "cmd/go/internal/modfetch", "cmd/go/internal/modfetch/codehost",
    "cmd/go/internal/modfile", "cmd/go/internal/modget", "cmd/go/internal/modinfo",
    "cmd/go/internal/modload", "cmd/go/internal/module", "cmd/go/internal/mvs",
    "cmd/go/internal/par", "cmd/go/internal/renameio", "cmd/go/internal/run",
    "cmd/go/internal/search", "cmd/go/internal/semver", "cmd/go/internal/str",
    "cmd/go/internal/test", "cmd/go/internal/tool", "cmd/go/internal/txtar",
    "cmd/go/internal/version", "cmd/go/internal/vet", "cmd/go/internal/web", "cmd/go/internal/web2",
    "cmd/go/internal/webtest", "cmd/go/internal/work", "cmd/internal/bio", "cmd/internal/browser",
    "cmd/internal/buildid", "cmd/internal/dwarf", "cmd/internal/edit", "cmd/internal/gcprog",
    "cmd/internal/goobj", "cmd/internal/obj", "cmd/internal/obj/arm", "cmd/internal/obj/arm64",
    "cmd/internal/obj/mips", "cmd/internal/obj/ppc64", "cmd/internal/obj/s390x",
    "cmd/internal/obj/wasm", "cmd/internal/obj/x86", "cmd/internal/objabi", "cmd/internal/objfile",
    "cmd/internal/src", "cmd/internal/sys", "cmd/internal/test2json", "cmd/link/internal/amd64",
    "cmd/link/internal/arm", "cmd/link/internal/arm64", "cmd/link/internal/ld",
    "cmd/link/internal/loadelf", "cmd/link/internal/loadmacho", "cmd/link/internal/loadpe",
    "cmd/link/internal/loadxcoff", "cmd/link/internal/mips", "cmd/link/internal/mips64",
    "cmd/link/internal/objfile", "cmd/link/internal/ppc64", "cmd/link/internal/s390x",
    "cmd/link/internal/sym", "cmd/link/internal/wasm", "cmd/link/internal/x86",
    "cmd/vet/internal/cfg", "cmd/vet/internal/whitelist"]

/-- The packages that come with Go. -/
def standard : List String :=
  publicPackages ++ internalPackages ++ commandPackages

end Import

end SumType

end Scriptlet
